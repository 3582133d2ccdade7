import FaberHosts.Lib.TextCuts

/-!
# The captured output of a Wasm run

`write_line` and `write_stderr_line` append lines to two captured streams under
one cap.  A line is cut at the number of bytes that are left, and `&line[..take]`
panics when that number is inside a character.
-/

namespace FaberHosts.Wasm
open FaberHosts.Lib

/-- `write_capped`: what is captured after the line. -/
def writeCapped (out text : String) (maxBytes : Nat) : MayPanic String :=
  let line := text ++ "\n"
  let remaining := maxBytes - out.utf8ByteSize
  if remaining = 0 then some out
  else
    let take := min line.utf8ByteSize remaining
    (sliceTo line take).map (out ++ ·)

inductive Stream where
  | stdout
  | stderr
  deriving DecidableEq, Repr

/-- The captured streams of the host state, and their cap. -/
structure Captured where
  stdout : String
  stderr : String
  maxStdoutBytes : Nat
  deriving DecidableEq, Repr

namespace Captured

def new (maxStdoutBytes : Nat) : Captured := ⟨"", "", maxStdoutBytes⟩

def stream (captured : Captured) : Stream → String
  | .stdout => captured.stdout
  | .stderr => captured.stderr

def writeLine (captured : Captured) (text : String) : MayPanic Captured :=
  (writeCapped captured.stdout text captured.maxStdoutBytes).map fun stdout =>
    { captured with stdout }

def writeStderrLine (captured : Captured) (text : String) : MayPanic Captured :=
  (writeCapped captured.stderr text captured.maxStdoutBytes).map fun stderr =>
    { captured with stderr }

/-- One line on one of the streams. -/
def write (captured : Captured) (line : Stream × String) : MayPanic Captured :=
  match line.1 with
  | .stdout => captured.writeLine line.2
  | .stderr => captured.writeStderrLine line.2

/-- The lines of a run, in their order. -/
def run (maxStdoutBytes : Nat) (lines : List (Stream × String)) : MayPanic Captured :=
  lines.foldlM write (new maxStdoutBytes)

end Captured

/-- Everything a run writes to a stream. -/
def written (stream : Stream) (lines : List (Stream × String)) : String :=
  String.join ((lines.filter fun line => line.1 = stream).map fun line => line.2 ++ "\n")

/-! ## One line -/

section

variable {cap : Nat} {text out line : String}

/-- A line that panics would have been cut inside a character, and the others are cut where
    the cap cuts everything written. -/
theorem writeCapped_eq_some_iff {out' : String} (hcut : Cut cap text out) :
    writeCapped out line cap = some out' ↔ Cut cap (text ++ (line ++ "\n")) out' := by
  obtain ⟨⟨rest, htext⟩, hsize⟩ := hcut
  have htotal := congrArg String.utf8ByteSize htext
  rw [String.utf8ByteSize_append] at htotal
  unfold writeCapped
  by_cases hfull : cap - out.utf8ByteSize = 0
  · -- nothing is left, so the cut of the longer text is the cut of the shorter one
    simp only [if_pos hfull, Option.some.injEq]
    constructor
    · rintro rfl
      refine ⟨⟨rest ++ (line ++ "\n"), by rw [htext, String.append_assoc]⟩, ?_⟩
      rw [String.utf8ByteSize_append]
      omega
    · rintro ⟨⟨more, hmore⟩, hsize'⟩
      rw [String.utf8ByteSize_append] at hsize'
      rw [htext, String.append_assoc] at hmore
      obtain ⟨w, rfl, -⟩ := split_append hmore (by omega)
      have hempty : w.utf8ByteSize = 0 := by
        rw [String.utf8ByteSize_append] at hsize'
        omega
      rw [String.utf8ByteSize_eq_zero_iff] at hempty
      rw [hempty, String.append_empty]
  · have hempty : rest.utf8ByteSize = 0 := by omega
    rw [String.utf8ByteSize_eq_zero_iff] at hempty
    rw [hempty, String.append_empty] at htext
    subst htext
    simp only [if_neg hfull, Option.map_eq_some_iff, sliceTo_eq_some_iff]
    constructor
    · rintro ⟨taken, ⟨⟨more, hmore⟩, htaken⟩, rfl⟩
      refine ⟨⟨more, by rw [hmore, String.append_assoc]⟩, ?_⟩
      rw [String.utf8ByteSize_append, String.utf8ByteSize_append, htaken]
      omega
    · rintro ⟨⟨more, hmore⟩, hsize'⟩
      rw [String.utf8ByteSize_append] at hsize'
      obtain ⟨taken, rfl, hline⟩ := split_append hmore (by omega)
      rw [String.utf8ByteSize_append] at hsize'
      exact ⟨taken, ⟨⟨more, hline⟩, by omega⟩, rfl⟩

end

/-! ## A run -/

theorem written_cons (stream : Stream) (line : Stream × String) (lines : List (Stream × String)) :
    written stream (line :: lines) =
      (if line.1 = stream then line.2 ++ "\n" else "") ++ written stream lines := by
  unfold written
  by_cases hstream : line.1 = stream
  · simp [hstream]
  · simp [hstream]

namespace Captured

/-- Each stream holds the cut of what was written to it. -/
structure Holds (captured : Captured) (cap : Nat) (text : Stream → String) : Prop where
  bound : captured.maxStdoutBytes = cap
  cut : ∀ stream, Cut cap (text stream) (captured.stream stream)

theorem new_holds (cap : Nat) : (new cap).Holds cap (fun _ => "") := by
  refine ⟨rfl, fun stream => ?_⟩
  cases stream <;> exact ⟨⟨"", rfl⟩, by simp [new, Captured.stream]⟩

variable {captured captured' : Captured} {cap : Nat} {text : Stream → String}
  {line : Stream × String} {lines : List (Stream × String)}

/-- The texts after one more line. -/
def extend (text : Stream → String) (line : Stream × String) (stream : Stream) : String :=
  text stream ++ (if line.1 = stream then line.2 ++ "\n" else "")

theorem Holds.write (h : captured.Holds cap text) (hwrite : captured.write line = some captured') :
    captured'.Holds cap (extend text line) := by
  obtain ⟨hcap, hcut⟩ := h
  obtain ⟨stream, text'⟩ := line
  cases stream with
  | stdout =>
    obtain ⟨out, hout, rfl⟩ := Option.map_eq_some_iff.mp hwrite
    rw [hcap] at hout
    replace hout := (writeCapped_eq_some_iff (hcut .stdout)).mp hout
    refine ⟨hcap, fun stream => ?_⟩
    cases stream with
    | stdout => simpa [extend, Captured.stream] using hout
    | stderr => simpa [extend, Captured.stream] using hcut .stderr
  | stderr =>
    obtain ⟨out, hout, rfl⟩ := Option.map_eq_some_iff.mp hwrite
    rw [hcap] at hout
    replace hout := (writeCapped_eq_some_iff (hcut .stderr)).mp hout
    refine ⟨hcap, fun stream => ?_⟩
    cases stream with
    | stdout => simpa [extend, Captured.stream] using hcut .stdout
    | stderr => simpa [extend, Captured.stream] using hout

theorem Holds.returns (h : captured.Holds cap text)
    (hcap : ∀ stream, AtCharacter cap (extend text line stream)) :
    ∃ captured', captured.write line = some captured' := by
  obtain ⟨stream, text'⟩ := line
  obtain ⟨out, hout⟩ := exists_cut_iff.mpr (hcap stream)
  rw [extend, if_pos rfl, ← writeCapped_eq_some_iff (h.cut stream)] at hout
  cases stream with
  | stdout =>
    refine ⟨{ captured with stdout := out }, ?_⟩
    rw [Captured.write, writeLine, h.bound, show captured.stdout = captured.stream .stdout from rfl,
      hout]
    rfl
  | stderr =>
    refine ⟨{ captured with stderr := out }, ?_⟩
    rw [Captured.write, writeStderrLine, h.bound,
      show captured.stderr = captured.stream .stderr from rfl, hout]
    rfl

theorem extend_append_written (stream : Stream) :
    extend text line stream ++ written stream lines =
      text stream ++ written stream (line :: lines) := by
  rw [written_cons, extend, String.append_assoc]

theorem Holds.writes (h : captured.Holds cap text)
    (hwrites : lines.foldlM Captured.write captured = some captured') :
    captured'.Holds cap (fun stream => text stream ++ written stream lines) := by
  induction lines generalizing captured text with
  | nil =>
    cases hwrites
    simpa [written] using h
  | cons line lines ih =>
    rw [List.foldlM_cons] at hwrites
    obtain ⟨next, hnext, hrest⟩ := Option.bind_eq_some_iff.mp hwrites
    simpa only [extend_append_written] using ih (h.write hnext) hrest

theorem Holds.all_return (h : captured.Holds cap text)
    (hcap : ∀ stream, AtCharacter cap (text stream ++ written stream lines)) :
    ∃ captured', lines.foldlM Captured.write captured = some captured' := by
  induction lines generalizing captured text with
  | nil => exact ⟨captured, rfl⟩
  | cons line lines ih =>
    simp only [← extend_append_written] at hcap
    obtain ⟨next, hnext⟩ := h.returns (fun stream => (hcap stream).of_append)
    obtain ⟨captured', hrest⟩ := ih (h.write hnext) hcap
    exact ⟨captured', by rw [List.foldlM_cons, hnext]; exact hrest⟩

/-- A run captures what fits of each stream, and panics on no line, exactly when its cap falls
    inside no character of what it writes. -/
theorem run_bounded_iff (cap : Nat) (lines : List (Stream × String)) :
    (∃ captured, run cap lines = some captured ∧
        ∀ stream, Bounded cap (written stream lines) (captured.stream stream)) ↔
      ∀ stream, AtCharacter cap (written stream lines) := by
  have hempty : ∀ stream, "" ++ written stream lines = written stream lines :=
    fun stream => String.empty_append
  constructor
  · rintro ⟨captured, hrun, -⟩ stream
    have hcut := ((new_holds cap).writes hrun).cut stream
    rw [hempty] at hcut
    exact exists_cut_iff.mp ⟨_, hcut⟩
  · intro hcap
    obtain ⟨captured, hrun⟩ := (new_holds cap).all_return
      (fun stream => by rw [hempty]; exact hcap stream)
    refine ⟨captured, hrun, fun stream => ?_⟩
    have hcut := ((new_holds cap).writes hrun).cut stream
    rw [hempty] at hcut
    exact hcut.bounded

/-- Two bytes are left for a letter and the two bytes of an `é`. -/
theorem run_splits_accent :
    ¬ ∃ captured, run 2 [(.stdout, "aé")] = some captured ∧
      ∀ stream, Bounded 2 (written stream [(.stdout, "aé")]) (captured.stream stream) := by
  rintro ⟨captured, hrun, -⟩
  have hpanics : run 2 [(.stdout, "aé")] = none := by decide
  rw [hpanics] at hrun
  cases hrun

end Captured

end FaberHosts.Wasm
