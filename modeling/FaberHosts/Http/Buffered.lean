import FaberHosts.Http.Parked

/-!
# The request in the buffer

`http/src/lib.rs`: what is buffered of a stream, and what more of the stream changes about
it.
-/

namespace FaberHosts.Http
open FaberHosts.Lib FaberHosts.Kernel

/-! ## The buffered request -/

section Buffered

variable {maxBodyBytes headerEnd : Nat} {id : String} {leftover more rest : List UInt8}
  {parts : RequestParts}

/-- The empty line behind the headers. -/
abbrev blankLine : List UInt8 := [13, 10, 13, 10]

theorem findHeaderEnd_cons {byte : UInt8} :
    findHeaderEnd (byte :: rest) =
      if blankLine <+: byte :: rest then some 0 else (findHeaderEnd rest).map (· + 1) := by
  rw [findHeaderEnd.eq_def]
  split
  next heq =>
    rw [if_pos (by simp [heq])]
  next hnot heq =>
    cases heq
    rw [if_neg]
    rintro ⟨later, hlater⟩
    obtain ⟨hbyte, hrest⟩ := List.cons.inj hlater
    exact hnot later hbyte.symm hrest.symm
  next heq => cases heq

theorem findHeaderEnd_eq_some_iff :
    findHeaderEnd leftover = some headerEnd ↔
      blankLine <+: leftover.drop headerEnd ∧
        ∀ i < headerEnd, ¬ blankLine <+: leftover.drop i := by
  induction leftover generalizing headerEnd with
  | nil => simp [findHeaderEnd]
  | cons byte rest ih =>
    rw [findHeaderEnd_cons]
    split
    next hhere =>
      constructor
      · rintro ⟨⟩
        exact ⟨hhere, fun i hi => absurd hi (Nat.not_lt_zero i)⟩
      · rintro ⟨-, hfirst⟩
        cases headerEnd with
        | zero => rfl
        | succ headerEnd => exact absurd hhere (hfirst 0 (Nat.succ_pos _))
    next hhere =>
      cases headerEnd with
      | zero => simpa using hhere
      | succ headerEnd =>
        simp only [Option.map_eq_some_iff, Nat.add_right_cancel_iff, exists_eq_right, ih,
          List.drop_succ_cons]
        refine and_congr_right fun _ => ⟨fun hfirst i hi => ?_, fun hfirst i hi => ?_⟩
        · cases i with
          | zero => exact hhere
          | succ i => exact hfirst i (Nat.lt_of_succ_lt_succ hi)
        · exact hfirst (i + 1) (Nat.succ_lt_succ hi)

theorem findHeaderEnd_le (h : findHeaderEnd leftover = some headerEnd) :
    headerEnd + 4 ≤ leftover.length := by
  have hle := (findHeaderEnd_eq_some_iff.mp h).1.length_le
  simp only [List.length_cons, List.length_nil, List.length_drop] at hle
  omega

/-- The first empty line of a stream is found exactly when all of it is buffered. -/
theorem findHeaderEnd_append_iff :
    findHeaderEnd leftover = some headerEnd ↔
      findHeaderEnd (leftover ++ more) = some headerEnd ∧ headerEnd + 4 ≤ leftover.length := by
  have hfront (i : Nat) (hi : i + 4 ≤ leftover.length) :
      blankLine <+: leftover.drop i ↔ blankLine <+: (leftover ++ more).drop i := by
    rw [List.drop_append_of_le_length (by omega)]
    constructor
    · exact fun h => h.trans (List.prefix_append _ _)
    · exact fun h => List.prefix_of_prefix_length_le h (List.prefix_append _ _) (by simp; omega)
  constructor
  · intro h
    have hle := findHeaderEnd_le h
    rw [findHeaderEnd_eq_some_iff] at h ⊢
    refine ⟨⟨(hfront _ hle).mp h.1, fun i hi => ?_⟩, hle⟩
    rw [← hfront i (by omega)]
    exact h.2 i hi
  · rintro ⟨h, hle⟩
    rw [findHeaderEnd_eq_some_iff] at h ⊢
    refine ⟨(hfront _ hle).mpr h.1, fun i hi => ?_⟩
    rw [hfront i (by omega)]
    exact h.2 i hi

theorem findHeaderEnd_eq_none (hend : findHeaderEnd (leftover ++ more) = some headerEnd)
    (hlt : leftover.length < headerEnd + 4) : findHeaderEnd leftover = none := by
  cases hfound : findHeaderEnd leftover with
  | none => rfl
  | some found =>
    have hsame := hend.symm.trans (findHeaderEnd_append_iff.mp hfound).1
    cases hsame
    exact absurd (findHeaderEnd_le hfound) (by omega)

def headersExceedLimit : HostError :=
  .invalidArgs "http:accept request headers exceed limit"

/-! The errors of a head are other ones. -/

theorem parseRequestLine_error {line : List Char} {e : HostError}
    (h : parseRequestLine line = .error e) : e ≠ headersExceedLimit := by
  unfold parseRequestLine at h
  split at h
  · cases h
    decide
  · split at h
    · cases h
      decide
    · split at h
      · cases h
        decide
      · split at h
        · cases h
        · cases h
          decide

theorem scanHeader_error {scan : HeaderScan} {line : List Char} {e : HostError}
    (h : scanHeader scan line = .error e) : e ≠ headersExceedLimit := by
  unfold scanHeader at h
  split at h
  · cases h
    decide
  · dsimp only at h
    split at h
    · cases h
      decide
    · split at h
      · cases h
        decide
      · split at h
        · split at h
          · cases h
            decide
          · split at h
            · cases h
              decide
            · cases h
        · cases h

theorem foldlM_scanHeader_error {scan : HeaderScan} {lines : List (List Char)} {e : HostError}
    (h : lines.foldlM scanHeader scan = .error e) : e ≠ headersExceedLimit := by
  induction lines generalizing scan with
  | nil => cases h
  | cons line lines ih =>
    rw [List.foldlM_cons] at h
    rcases bind_error_iff.mp h with hline | ⟨scan', -, hrest⟩
    · exact scanHeader_error hline
    · exact ih hrest

theorem parseHeaders_error {bytes : List UInt8} {e : HostError}
    (h : parseHeaders bytes = .error e) : e ≠ headersExceedLimit := by
  unfold parseHeaders at h
  split at h
  · cases h
    decide
  · rcases bind_error_iff.mp h with hline | ⟨_, -, hrest⟩
    · exact parseRequestLine_error hline
    · rcases bind_error_iff.mp hrest with hscan | ⟨scan, -, hhost⟩
      · exact foldlM_scanHeader_error hscan
      · split at hhost
        · cases hhost
          decide
        · cases hhost

theorem bufferedRequest_of_none (h : findHeaderEnd leftover = none) :
    bufferedRequest maxBodyBytes id leftover =
      if maxHeaderBytes < leftover.length then .error headersExceedLimit else .ok none := by
  unfold bufferedRequest
  rw [h]
  rfl

/-- The answer of the bytes behind an empty line; `size` is the length of the request. -/
theorem bufferedRequest_of_header (maxBodyBytes : Nat) (id : String)
    (h : findHeaderEnd leftover = some headerEnd) :
    (∃ e, ∀ more, bufferedRequest maxBodyBytes id (leftover ++ more) = .error e ∧
        e ≠ headersExceedLimit) ∨
      ∃ size, headerEnd + 4 ≤ size ∧ ∃ parts : RequestParts, ∀ more,
        bufferedRequest maxBodyBytes id (leftover ++ more) =
          if size ≤ (leftover ++ more).length then
            .ok (some ({ parts with
              body := ((leftover ++ more).take size).drop (headerEnd + 4) },
              (leftover ++ more).drop size))
          else .ok none := by
  have hle := findHeaderEnd_le h
  have htake (more : List UInt8) : (leftover ++ more).take headerEnd = leftover.take headerEnd := by
    rw [List.take_append_of_le_length (by omega)]
  have hend (more : List UInt8) : findHeaderEnd (leftover ++ more) = some headerEnd :=
    (findHeaderEnd_append_iff.mp h).1
  cases hparsed : parseHeaders (leftover.take headerEnd) with
  | error e =>
    left
    refine ⟨e, fun more => ⟨?_, ?_⟩⟩
    · unfold bufferedRequest
      rw [hend]
      simp only [htake, hparsed, bind, Except.bind]
    · exact parseHeaders_error hparsed
  | ok parsed =>
    by_cases hbody : maxBodyBytes < parsed.contentLength
    · left
      refine ⟨.invalidArgs s!"http:accept request body exceeds max_body_bytes {maxBodyBytes}",
        fun more => ⟨?_, ?_⟩⟩
      · unfold bufferedRequest
        rw [hend]
        simp only [htake, hparsed, bind, Except.bind, if_pos hbody]
      · intro heq
        have htext := congrArg (fun e => e.message.toList) heq
        have hliteral (text : String) : toString text = text := rfl
        simp [headersExceedLimit, HostError.invalidArgs, hliteral] at htext
    · right
      refine ⟨headerEnd + 4 + parsed.contentLength, by omega,
        ⟨id, parsed.method, parsed.path, parsed.headers, []⟩, fun more => ?_⟩
      unfold bufferedRequest
      rw [hend]
      simp only [htake, hparsed, bind, Except.bind, if_neg hbody]

/-- A request that is buffered is found in front of whatever follows it. -/
theorem bufferedRequest_append
    (h : bufferedRequest maxBodyBytes id leftover = .ok (some (parts, rest))) :
    bufferedRequest maxBodyBytes id (leftover ++ more) = .ok (some (parts, rest ++ more)) := by
  cases hend : findHeaderEnd leftover with
  | none =>
    rw [bufferedRequest_of_none hend] at h
    split at h
    · cases h
    · cases h
  | some headerEnd =>
    rcases bufferedRequest_of_header maxBodyBytes id hend with
      ⟨e, he⟩ | ⟨size, hsize, parts', hparts⟩
    · have := (he []).1
      rw [List.append_nil, h] at this
      cases this
    · have hshort := hparts []
      rw [List.append_nil, h] at hshort
      split at hshort
      next hle =>
        cases hshort
        rw [hparts more, if_pos (by rw [List.length_append]; omega),
          List.take_append_of_le_length hle, List.drop_append_of_le_length hle]
      next => cases hshort

/-- A request and the rest behind it make up a stream. -/
def TakesRequest (stream : List UInt8) (parts : RequestParts) (rest : List UInt8) : Prop :=
  ∃ headerEnd, findHeaderEnd stream = some headerEnd ∧
    headerEnd + 4 + parts.body.length ≤ stream.length ∧
    parts.body = (stream.drop (headerEnd + 4)).take parts.body.length ∧
    rest = stream.drop (headerEnd + 4 + parts.body.length)

theorem bufferedRequest_takes
    (h : bufferedRequest maxBodyBytes id leftover = .ok (some (parts, rest))) :
    TakesRequest leftover parts rest := by
  cases hend : findHeaderEnd leftover with
  | none =>
    rw [bufferedRequest_of_none hend] at h
    split at h
    · cases h
    · cases h
  | some headerEnd =>
    rcases bufferedRequest_of_header maxBodyBytes id hend with
      ⟨e, he⟩ | ⟨size, hsize, parts', hparts⟩
    · have := (he []).1
      rw [List.append_nil, h] at this
      cases this
    · have hshort := hparts []
      rw [List.append_nil, h] at hshort
      split at hshort
      next hle =>
        cases hshort
        have hlength : ((leftover.take size).drop (headerEnd + 4)).length =
            size - (headerEnd + 4) := by
          simp only [List.length_drop, List.length_take]
          omega
        refine ⟨headerEnd, hend, ?_, ?_, ?_⟩
        · rw [hlength]
          omega
        · dsimp only
          rw [hlength, List.drop_take]
        · rw [hlength]
          congr 1
          omega
      next => cases hshort

theorem TakesRequest.length_lt {stream : List UInt8} (h : TakesRequest stream parts rest) :
    rest.length < stream.length := by
  obtain ⟨headerEnd, -, hle, -, rfl⟩ := h
  rw [List.length_drop]
  omega

end Buffered

end FaberHosts.Http
