import FaberHosts.Http.Polls

/-!
# Requests from a split stream

`http/src/lib.rs`: the requests that successive polls read from a stream, however it is
split into reads.  The limit on the headers is checked on what is buffered, and so on a
part of them.
-/

namespace FaberHosts.Http
open FaberHosts.Lib FaberHosts.Kernel

/-- The size of the buffer a read fills. -/
def readChunk : Nat := 4096

/-! ## The stream as a whole -/

section Stream

variable {maxBodyBytes n : Nat} {closed : Bool}

/-- How a stream ends that has no whole request left. -/
def tailEnding (closed : Bool) (stream : List UInt8) : Ending :=
  if closed then
    if stream = [] then .closed
    else .failed (.invalidArgs "http:accept request ended before headers")
  else .waiting

/-- The headers of the next request, as far as they have come, are longer than the limit by
    more than the last bytes of their empty line. -/
def Oversized (stream : List UInt8) : Prop :=
  match findHeaderEnd stream with
  | none => maxHeaderBytes < stream.length
  | some headerEnd => maxHeaderBytes + 1 < headerEnd + 4

instance (stream : List UInt8) : Decidable (Oversized stream) :=
  match h : findHeaderEnd stream with
  | none => decidable_of_iff (maxHeaderBytes < stream.length) (by simp [Oversized, h])
  | some headerEnd =>
    decidable_of_iff (maxHeaderBytes + 1 < headerEnd + 4) (by simp [Oversized, h])

/-- The requests of a stream, each with the rest behind it. -/
def parseStream (maxBodyBytes n : Nat) (closed : Bool) (stream : List UInt8) :
    List (RequestParts × List UInt8) × Ending :=
  if Oversized stream then ([], .failed headersExceedLimit)
  else
    match _h : bufferedRequest maxBodyBytes (requestId n) stream with
    | .error e => ([], .failed e)
    | .ok none => ([], tailEnding closed stream)
    | .ok (some (parts, rest)) =>
      let later := parseStream maxBodyBytes (n + 1) closed rest
      ((parts, rest) :: later.1, later.2)
termination_by stream.length
decreasing_by exact (bufferedRequest_takes _h).length_lt

/-- The rest of a stream behind some of its requests. -/
inductive LeavesBehind (maxBodyBytes : Nat) : List UInt8 → List UInt8 → Prop where
  | here (stream : List UInt8) : LeavesBehind maxBodyBytes stream stream
  | next {id : String} {stream rest last : List UInt8} {parts : RequestParts}
      (hsize : ¬ Oversized stream)
      (h : bufferedRequest maxBodyBytes id stream = .ok (some (parts, rest)))
      (hrest : LeavesBehind maxBodyBytes rest last) : LeavesBehind maxBodyBytes stream last

/-- No request of the stream has headers that exceed the limit by so little that one read
    can still take in their end. -/
def ClearOfLimit (maxBodyBytes : Nat) (stream : List UInt8) : Prop :=
  ∀ last headerEnd, LeavesBehind maxBodyBytes stream last → findHeaderEnd last = some headerEnd →
    maxHeaderBytes + 1 < headerEnd + 4 → maxHeaderBytes + readChunk < headerEnd + 4

/-- A read of bytes, or one that would block. -/
def IsRead : ReadEvent → Prop
  | .data bytes => bytes ≠ [] ∧ bytes.length ≤ readChunk
  | .wouldBlock _ _ => True
  | _ => False

def tailEvents (closed : Bool) : List ReadEvent := if closed then [.ended] else []

/-- The events are a way in which the stream arrives. -/
def Delivers (closed : Bool) (stream : List UInt8) (events : List ReadEvent) : Prop :=
  ∃ reads, events = reads ++ tailEvents closed ∧ (∀ event ∈ reads, IsRead event) ∧
    delivered reads = stream

/-- Each request of a trace is the next one of the stream, and what is left behind it is the
    rest of the stream. -/
def TakesAll : List UInt8 → List (RequestParts × List UInt8) → Prop
  | _, [] => True
  | stream, (parts, rest) :: later => TakesRequest stream parts rest ∧ TakesAll rest later

/-- However the stream arrives, enough polls read the same requests, leave the rest of the
    stream behind each, and end in the same way. -/
def SplitIndependent (maxBodyBytes : Nat) (closed : Bool) (stream : List UInt8) : Prop :=
  ∃ trace ending, TakesAll stream trace ∧ ending ≠ .unfinished ∧
    ∀ events, Delivers closed stream events → ∀ now stopped,
      ∃ enough, ∀ calls, enough ≤ calls →
        pollAll maxBodyBytes now stopped calls 0 (freshRead now) events = (trace, ending)

/-- What is buffered when the next request is looked for: the end of its headers was read in
    by one read, and so were the bytes behind it. -/
structure Fits (maxBodyBytes : Nat) (leftover : List UInt8) : Prop where
  header : ∀ headerEnd, findHeaderEnd leftover = some headerEnd →
    headerEnd + 4 ≤ maxHeaderBytes + readChunk
  rest : ∀ id parts rest, bufferedRequest maxBodyBytes id leftover = .ok (some (parts, rest)) →
    rest.length < readChunk

variable {leftover stream rest : List UInt8} {headerEnd : Nat} {parts : RequestParts} {id : String}

theorem Fits.of_short (h : leftover.length < readChunk) : Fits maxBodyBytes leftover where
  header headerEnd hend := by
    have := findHeaderEnd_le hend
    unfold maxHeaderBytes
    omega
  rest id parts rest hready := (bufferedRequest_takes hready).length_lt.trans h

theorem length_le_of_none (h : bufferedRequest maxBodyBytes id leftover = .ok none)
    (hend : findHeaderEnd leftover = none) : leftover.length ≤ maxHeaderBytes := by
  rw [bufferedRequest_of_none hend] at h
  split at h
  · cases h
  · omega

theorem Fits.read {bytes : List UInt8} (h : Fits maxBodyBytes leftover)
    (hnone : bufferedRequest maxBodyBytes id leftover = .ok none)
    (hbytes : bytes.length ≤ readChunk) : Fits maxBodyBytes (leftover ++ bytes) where
  header headerEnd hend := by
    cases hfound : findHeaderEnd leftover with
    | none =>
      have hle := findHeaderEnd_le hend
      have hshort := length_le_of_none hnone hfound
      rw [List.length_append] at hle
      omega
    | some found =>
      have hsame := hend.symm.trans (findHeaderEnd_append_iff.mp hfound).1
      cases hsame
      exact h.header _ hfound
  rest id' parts rest hready := by
    obtain ⟨headerEnd, hend, hle, -, hrest⟩ := bufferedRequest_takes hready
    have hlength := congrArg List.length hrest
    rw [List.length_drop, List.length_append] at hlength
    rw [List.length_append] at hle
    cases hfound : findHeaderEnd leftover with
    | none =>
      have hbehind : leftover.length < headerEnd + 4 := by
        by_contra hin
        have := findHeaderEnd_append_iff.mpr ⟨hend, not_lt.mp hin⟩
        rw [hfound] at this
        cases this
      omega
    | some found =>
      rcases bufferedRequest_of_header maxBodyBytes id' hfound with ⟨e, he⟩ | ⟨size, -, parts', hparts⟩
      · rw [(he bytes).1] at hready
        cases hready
      · have hshort := hparts []
        rw [List.append_nil, bufferedRequest_none_rename id' hnone] at hshort
        split at hshort
        next => cases hshort
        next hbehind =>
          rw [hparts bytes] at hready
          split at hready
          next hle' =>
            cases hready
            rw [List.length_append] at hle'
            simp only [List.length_drop, List.length_append]
            omega
          next => cases hready

theorem not_oversized (hclear : ClearOfLimit maxBodyBytes stream)
    (hend : findHeaderEnd stream = some headerEnd)
    (hle : headerEnd + 4 ≤ maxHeaderBytes + readChunk) : ¬ Oversized stream := by
  unfold Oversized
  rw [hend]
  intro hover
  have := hclear stream headerEnd (.here stream) hend hover
  omega

/-- A buffer over the limit without an empty line is a part of a stream that is. -/
theorem oversized_of_none {more : List UInt8} (hend : findHeaderEnd leftover = none)
    (hover : maxHeaderBytes < leftover.length) : Oversized (leftover ++ more) := by
  unfold Oversized
  cases hfound : findHeaderEnd (leftover ++ more) with
  | none =>
    rw [List.length_append]
    omega
  | some headerEnd =>
    by_contra hin
    have := findHeaderEnd_append_iff.mpr ⟨hfound, by omega⟩
    rw [hend] at this
    cases this

theorem delivered_append (events more : List ReadEvent) :
    delivered (events ++ more) = delivered events ++ delivered more := by
  induction events with
  | nil => rfl
  | cons event events ih => cases event <;> simp [delivered, ih]

theorem delivered_tail : delivered (tailEvents closed) = [] := by
  cases closed with
  | false => rfl
  | true => rfl

theorem parseStream_ready (hsize : ¬ Oversized stream)
    (h : bufferedRequest maxBodyBytes (requestId n) stream = .ok (some (parts, rest))) :
    parseStream maxBodyBytes n closed stream =
      ((parts, rest) :: (parseStream maxBodyBytes (n + 1) closed rest).1,
        (parseStream maxBodyBytes (n + 1) closed rest).2) := by
  rw [parseStream.eq_def, if_neg hsize]
  split
  next e herror => exact absurd (h.symm.trans herror) (by simp)
  next hnone => exact absurd (h.symm.trans hnone) (by simp)
  next parts' rest' hready =>
    obtain ⟨rfl, rfl⟩ := Prod.mk.inj (Option.some.inj (Except.ok.inj (h.symm.trans hready)))
    rfl

theorem parseStream_none (hsize : ¬ Oversized stream)
    (h : bufferedRequest maxBodyBytes (requestId n) stream = .ok none) :
    parseStream maxBodyBytes n closed stream = ([], tailEnding closed stream) := by
  rw [parseStream.eq_def, if_neg hsize]
  split
  next e herror => exact absurd (h.symm.trans herror) (by simp)
  next => rfl
  next parts' rest' hready => exact absurd (h.symm.trans hready) (by simp)

theorem parseStream_error {e : HostError} (hsize : ¬ Oversized stream)
    (h : bufferedRequest maxBodyBytes (requestId n) stream = .error e) :
    parseStream maxBodyBytes n closed stream = ([], .failed e) := by
  rw [parseStream.eq_def, if_neg hsize]
  split
  next e' herror => rw [Except.error.inj (h.symm.trans herror)]
  next hnone => exact absurd (h.symm.trans hnone) (by simp)
  next parts' rest' hready => exact absurd (h.symm.trans hready) (by simp)

/-- The polls read what the stream holds, whatever part of it they have buffered. -/
theorem serve_eq_parseStream {reads : List ReadEvent} (hfits : Fits maxBodyBytes leftover)
    (hreads : ∀ event ∈ reads, IsRead event)
    (hclear : ClearOfLimit maxBodyBytes (leftover ++ delivered reads)) :
    serve maxBodyBytes n leftover (reads ++ tailEvents closed) =
      parseStream maxBodyBytes n closed (leftover ++ delivered reads) := by
  induction hk : leftover.length + (delivered reads).length + reads.length
    using Nat.strong_induction_on generalizing n leftover reads with
  | _ k ih =>
    have hheader {headerEnd : Nat} (hend : findHeaderEnd leftover = some headerEnd) :
        ¬ Oversized (leftover ++ delivered reads) :=
      not_oversized hclear (findHeaderEnd_append_iff.mp hend).1 (hfits.header headerEnd hend)
    cases hread : bufferedRequest maxBodyBytes (requestId n) leftover with
    | error e =>
      rw [serve_error hread]
      cases hend : findHeaderEnd leftover with
      | none =>
        rw [bufferedRequest_of_none hend] at hread
        split at hread
        next hover =>
          cases hread
          rw [parseStream.eq_def, if_pos (oversized_of_none hend hover)]
        next => cases hread
      | some headerEnd =>
        rcases bufferedRequest_of_header maxBodyBytes (requestId n) hend with
          ⟨e', he⟩ | ⟨size, -, parts, hparts⟩
        · have hsame := (he []).1
          rw [List.append_nil, hread] at hsame
          cases hsame
          rw [parseStream_error (hheader hend) (he _).1]
        · have hsame := hparts []
          rw [List.append_nil, hread] at hsame
          split at hsame
          next => cases hsame
          next => cases hsame
    | ok read =>
      cases read with
      | some read =>
        obtain ⟨parts, rest⟩ := read
        obtain ⟨headerEnd, hend, -⟩ := bufferedRequest_takes hread
        rw [serve_ready hread, parseStream_ready (hheader hend) (bufferedRequest_append hread)]
        have hlt := (bufferedRequest_takes hread).length_lt
        have hrest := ih _ (by omega) (n := n + 1) (Fits.of_short (hfits.rest _ _ _ hread)) hreads
          (fun last headerEnd hlast => hclear last headerEnd
            (.next (hheader hend) (bufferedRequest_append hread) hlast)) rfl
        rw [hrest, delivered_append, delivered_tail, List.append_nil]
      | none =>
        rw [serve_none hread]
        cases reads with
        | nil =>
          have hsize : ¬ Oversized leftover := by
            cases hend : findHeaderEnd leftover with
            | none =>
              have := length_le_of_none hread hend
              unfold Oversized
              rw [hend]
              omega
            | some headerEnd => simpa [delivered] using hheader hend
          rw [delivered, List.append_nil, parseStream_none hsize hread]
          cases closed with
          | false => rfl
          | true => rfl
        | cons event reads =>
          have hrest := fun event h => hreads event (List.mem_cons_of_mem _ h)
          have hevent := hreads event List.mem_cons_self
          cases event with
          | data bytes =>
            have hstream : leftover ++ delivered (.data bytes :: reads) =
                (leftover ++ bytes) ++ delivered reads := (List.append_assoc _ _ _).symm
            rw [hstream] at hclear ⊢
            refine ih _ ?_ (hfits.read hread hevent.2) hrest hclear rfl
            subst hk
            simp only [delivered, List.length_append, List.length_cons]
            omega
          | wouldBlock cancelled expired =>
            refine ih _ ?_ hfits hrest hclear rfl
            subst hk
            exact Nat.lt_succ_self _
          | ended => exact hevent.elim
          | interrupted => exact hevent.elim
          | failed error => exact hevent.elim

theorem takesAll_parseStream (maxBodyBytes n : Nat) (closed : Bool) (stream : List UInt8) :
    TakesAll stream (parseStream maxBodyBytes n closed stream).1 ∧
      (parseStream maxBodyBytes n closed stream).2 ≠ .unfinished := by
  fun_induction parseStream maxBodyBytes n closed stream with
  | case1 n stream hsize => exact ⟨trivial, fun h => nomatch h⟩
  | case2 n stream hsize e herror => exact ⟨trivial, fun h => nomatch h⟩
  | case3 n stream hsize hnone =>
    refine ⟨trivial, ?_⟩
    unfold tailEnding
    split
    · split
      · exact fun h => nomatch h
      · exact fun h => nomatch h
    · exact fun h => nomatch h
  | case4 n stream hsize parts rest hready later ih =>
    exact ⟨⟨bufferedRequest_takes hready, ih.1⟩, ih.2⟩

theorem splitIndependent_of_clear (h : ClearOfLimit maxBodyBytes stream) :
    SplitIndependent maxBodyBytes closed stream := by
  obtain ⟨htakes, hending⟩ := takesAll_parseStream maxBodyBytes 0 closed stream
  refine ⟨_, _, htakes, hending, ?_⟩
  rintro _ ⟨reads, rfl, hreads, rfl⟩ now stopped
  obtain ⟨enough, hpolls⟩ := pollAll_enough maxBodyBytes now 0 stopped (freshRead now)
    (reads ++ tailEvents closed)
  refine ⟨enough, fun calls hcalls => (hpolls calls hcalls).trans ?_⟩
  exact serve_eq_parseStream (Fits.of_short (by simp [freshRead, readChunk])) hreads h

/-! ## Two splits that differ -/

/-- Reads of one byte each. -/
def bytewise (bytes : List UInt8) : List ReadEvent := bytes.map (fun byte => .data [byte])

theorem delivered_bytewise (bytes : List UInt8) : delivered (bytewise bytes) = bytes := by
  induction bytes with
  | nil => rfl
  | cons byte bytes ih => simpa [bytewise, delivered] using ih

theorem isRead_bytewise {bytes : List UInt8} : ∀ event ∈ bytewise bytes, IsRead event := by
  intro event h
  obtain ⟨byte, -, rfl⟩ := List.mem_map.mp h
  exact ⟨List.cons_ne_nil _ _, by simp [readChunk]⟩

/-- A part of a request within the limit is not a request, and no error. -/
theorem bufferedRequest_part {request part more : List UInt8}
    (h : bufferedRequest maxBodyBytes id (request ++ rest) = .ok (some (parts, rest)))
    (hsize : ¬ Oversized (request ++ rest)) (hpart : part ++ more = request) :
    bufferedRequest maxBodyBytes id part = if more = [] then .ok (some (parts, [])) else .ok none := by
  obtain ⟨headerEnd, hend, hle, -, hrest⟩ := bufferedRequest_takes h
  have hlength := congrArg List.length hrest
  simp only [List.length_drop, List.length_append] at hlength hle
  have hwithin : headerEnd + 4 ≤ maxHeaderBytes + 1 := by
    unfold Oversized at hsize
    rw [hend] at hsize
    omega
  have hparts := congrArg List.length hpart
  rw [List.length_append] at hparts
  have hstream : request ++ rest = part ++ (more ++ rest) := by rw [← hpart, List.append_assoc]
  rw [hstream] at h hend
  cases hfound : findHeaderEnd part with
  | none =>
    have hbehind : part.length < headerEnd + 4 := by
      by_contra hin
      have := findHeaderEnd_append_iff.mpr ⟨hend, not_lt.mp hin⟩
      rw [hfound] at this
      cases this
    rw [bufferedRequest_of_none hfound, if_neg (by omega), if_neg]
    rintro rfl
    simp only [List.length_nil] at hparts
    omega
  | some found =>
    rcases bufferedRequest_of_header maxBodyBytes id hfound with ⟨e, he⟩ | ⟨size, -, parts', hall⟩
    · rw [(he _).1] at h
      cases h
    · rw [hall] at h
      split at h
      next hfits =>
        obtain ⟨hread, hbehind⟩ := Prod.mk.inj (Option.some.inj (Except.ok.inj h))
        have hdrop := congrArg List.length hbehind
        simp only [List.length_drop, List.length_append] at hdrop hfits
        have hsize : size = request.length := by omega
        have hwhole := hall []
        rw [List.append_nil] at hwhole
        rw [hwhole]
        by_cases hmore : more = []
        · subst hmore
          rw [List.append_nil] at hpart
          subst hpart
          rw [if_pos (by omega), if_pos rfl, ← hread, hsize]
          simp
        · have := List.length_pos_iff.mpr hmore
          rw [if_neg (by omega), if_neg hmore]
      next => cases h

theorem bytewise_cons (byte : UInt8) (bytes : List UInt8) :
    bytewise (byte :: bytes) = .data [byte] :: bytewise bytes := rfl

theorem serve_bytewise_request {request : List UInt8} {events : List ReadEvent}
    (h : bufferedRequest maxBodyBytes (requestId n) (request ++ rest) = .ok (some (parts, rest)))
    (hsize : ¬ Oversized (request ++ rest)) :
    serve maxBodyBytes n [] (bytewise request ++ events) =
      ((parts, delivered events) :: (serve maxBodyBytes (n + 1) [] events).1,
        (serve maxBodyBytes (n + 1) [] events).2) := by
  suffices hpart : ∀ more part, part ++ more = request →
      serve maxBodyBytes n part (bytewise more ++ events) =
        ((parts, delivered events) :: (serve maxBodyBytes (n + 1) [] events).1,
          (serve maxBodyBytes (n + 1) [] events).2) from hpart request [] rfl
  intro more
  induction more with
  | nil =>
    intro part hpart
    have hread := bufferedRequest_part h hsize hpart
    rw [if_pos rfl] at hread
    exact serve_ready hread
  | cons byte more ih =>
    intro part hpart
    have hread := bufferedRequest_part h hsize hpart
    rw [if_neg (List.cons_ne_nil _ _)] at hread
    rw [bytewise_cons, List.cons_append, serve_none hread]
    exact ih (part ++ [byte]) (by rw [← hpart, List.append_assoc, List.singleton_append])

/-- Byte by byte, the rest behind some requests is read as it is on its own. -/
theorem LeavesBehind.serve_bytewise {last : List UInt8}
    (h : LeavesBehind maxBodyBytes stream last) (n : Nat) :
    ∃ before later trace, stream = before ++ last ∧ ∀ events, delivered events = last →
      serve maxBodyBytes n [] (bytewise before ++ events) =
        (trace ++ (serve maxBodyBytes later [] events).1,
          (serve maxBodyBytes later [] events).2) := by
  induction h generalizing n with
  | here stream => exact ⟨[], n, [], rfl, fun events _ => rfl⟩
  | @next id stream rest last parts hsize h hrest ih =>
    obtain ⟨before, later, trace, rfl, htrace⟩ := ih (n + 1)
    obtain ⟨headerEnd, -, hle, -, hbehind⟩ := bufferedRequest_takes h
    set size := headerEnd + 4 + parts.body.length
    have hstream : stream.take size ++ (before ++ last) = stream := by
      rw [hbehind, List.take_append_drop]
    have hnamed : bufferedRequest maxBodyBytes (requestId n) stream =
        .ok (some ({ parts with id := requestId n }, before ++ last)) := by
      rw [bufferedRequest_rename maxBodyBytes (requestId n) id, h]
      rfl
    refine ⟨stream.take size ++ before, later,
      ({ parts with id := requestId n }, before ++ last) :: trace, ?_, fun events hevents => ?_⟩
    · rw [List.append_assoc, hstream]
    · have hbytes : bytewise (stream.take size ++ before) ++ events =
          bytewise (stream.take size) ++ (bytewise before ++ events) := by
        simp [bytewise]
      rw [hbytes, serve_bytewise_request (by rwa [hstream]) (by rwa [hstream]),
        htrace events hevents, delivered_append, delivered_bytewise, hevents]
      rfl

/-- Up to the limit, bytes of headers that do not end there are only collected. -/
theorem serve_bytewise_part (behind : List UInt8) {part more : List UInt8} {events : List ReadEvent}
    (hend : findHeaderEnd (part ++ more ++ behind) = some headerEnd)
    (hover : maxHeaderBytes + 1 < headerEnd + 4)
    (hlength : part.length + more.length ≤ maxHeaderBytes + 1) :
    serve maxBodyBytes n part (bytewise more ++ events) =
      serve maxBodyBytes n (part ++ more) events := by
  induction more generalizing part with
  | nil =>
    rw [List.append_nil]
    rfl
  | cons byte more ih =>
    rw [List.length_cons] at hlength
    have hbytes : part ++ byte :: more = (part ++ [byte]) ++ more := by simp
    have hnone : findHeaderEnd part = none := by
      rw [List.append_assoc] at hend
      exact findHeaderEnd_eq_none hend (by omega)
    have hread : bufferedRequest maxBodyBytes (requestId n) part = .ok none := by
      rw [bufferedRequest_of_none hnone, if_neg (by omega)]
    rw [bytewise_cons, List.cons_append, serve_none hread]
    dsimp only
    rw [hbytes] at hend ⊢
    exact ih hend (by simp only [List.length_append, List.length_singleton]; omega)

/-- Byte by byte, the headers are found to exceed the limit before they end. -/
theorem serve_bytewise_limit {last : List UInt8} {events : List ReadEvent}
    (hend : findHeaderEnd last = some headerEnd) (hover : maxHeaderBytes + 1 < headerEnd + 4) :
    serve maxBodyBytes n [] (bytewise last ++ events) = ([], .failed headersExceedLimit) := by
  have hle := findHeaderEnd_le hend
  set part := last.take (maxHeaderBytes + 1)
  have hlast : part ++ last.drop (maxHeaderBytes + 1) = last := List.take_append_drop _ _
  have hlength : part.length = maxHeaderBytes + 1 := by
    rw [List.length_take]
    omega
  have hbytes : bytewise last ++ events =
      bytewise part ++ (bytewise (last.drop (maxHeaderBytes + 1)) ++ events) := by
    rw [← List.append_assoc, bytewise, bytewise, bytewise, ← List.map_append, hlast]
  rw [hbytes, serve_bytewise_part (last.drop (maxHeaderBytes + 1))
    (by rwa [List.nil_append, hlast]) hover (by simp [hlength])]
  refine serve_error ?_
  rw [List.nil_append, bufferedRequest_of_none, if_pos (by omega)]
  exact findHeaderEnd_eq_none (hlast.symm ▸ hend) (by omega)

theorem bufferedRequest_ne_limit (hend : findHeaderEnd leftover = some headerEnd) :
    bufferedRequest maxBodyBytes id leftover ≠ .error headersExceedLimit := by
  rcases bufferedRequest_of_header maxBodyBytes id hend with ⟨e, he⟩ | ⟨size, -, parts, hall⟩
  · have := (he []).1
    rw [List.append_nil] at this
    rw [this]
    exact fun heq => (he []).2 (Except.error.inj heq)
  · have := hall []
    rw [List.append_nil] at this
    rw [this]
    split
    · exact fun h => nomatch h
    · exact fun h => nomatch h

theorem serve_error_ne {events : List ReadEvent} {e : HostError}
    (hend : findHeaderEnd leftover = some headerEnd)
    (hread : bufferedRequest maxBodyBytes (requestId n) leftover = .error e) :
    serve maxBodyBytes n leftover events ≠ ([], .failed headersExceedLimit) := by
  rw [serve_error hread]
  intro h
  exact bufferedRequest_ne_limit hend (hread.trans (by rw [Ending.failed.inj (Prod.mk.inj h).2]))

theorem serve_ne_limit {events : List ReadEvent} (hend : findHeaderEnd leftover = some headerEnd) :
    serve maxBodyBytes n leftover events ≠ ([], .failed headersExceedLimit) := by
  induction events generalizing leftover with
  | nil =>
    cases hread : bufferedRequest maxBodyBytes (requestId n) leftover with
    | error e => exact serve_error_ne hend hread
    | ok read =>
      cases read with
      | some read =>
        rw [serve_ready hread]
        exact fun h => nomatch h
      | none =>
        rw [serve_none hread]
        exact fun h => nomatch h
  | cons event events ih =>
    cases hread : bufferedRequest maxBodyBytes (requestId n) leftover with
    | error e => exact serve_error_ne hend hread
    | ok read =>
      cases read with
      | some read =>
        rw [serve_ready hread]
        exact fun h => nomatch h
      | none =>
        rw [serve_none hread]
        cases event with
        | data bytes => exact ih (findHeaderEnd_append_iff.mp hend).1
        | ended =>
          dsimp only
          split
          · exact fun h => nomatch h
          · intro h
            have := Ending.failed.inj (Prod.mk.inj h).2
            revert this
            decide
        | wouldBlock cancelled expired => exact ih hend
        | interrupted => exact ih hend
        | failed error =>
          intro h
          have := congrArg HostError.code (Ending.failed.inj (Prod.mk.inj h).2)
          revert this
          simp [HostError.internal, headersExceedLimit, HostError.invalidArgs]

/-- A read over the limit takes in the end of headers that exceed it by little. -/
theorem serve_jump {last : List UInt8} {events : List ReadEvent}
    (hend : findHeaderEnd last = some headerEnd) (hover : maxHeaderBytes + 1 < headerEnd + 4) :
    serve maxBodyBytes n [] (bytewise (last.take maxHeaderBytes) ++
      .data ((last.drop maxHeaderBytes).take (headerEnd + 4 - maxHeaderBytes)) :: events) ≠
        ([], .failed headersExceedLimit) := by
  have hle := findHeaderEnd_le hend
  set part := last.take maxHeaderBytes
  set bytes := (last.drop maxHeaderBytes).take (headerEnd + 4 - maxHeaderBytes)
  have hlast : part ++ last.drop maxHeaderBytes = last := List.take_append_drop _ _
  have hlength : part.length = maxHeaderBytes := by
    rw [List.length_take]
    omega
  rw [serve_bytewise_part (last.drop maxHeaderBytes) (by rwa [List.nil_append, hlast]) hover
    (by simp [hlength])]
  have hread : bufferedRequest maxBodyBytes (requestId n) ([] ++ part) = .ok none := by
    rw [List.nil_append, bufferedRequest_of_none, if_neg (by omega)]
    exact findHeaderEnd_eq_none (hlast.symm ▸ hend) (by omega)
  rw [serve_none hread]
  have htake : [] ++ part ++ bytes = last.take (headerEnd + 4) := by
    rw [List.nil_append, ← List.take_add, Nat.add_sub_cancel' (by omega)]
  have hfound : findHeaderEnd ([] ++ part ++ bytes) = some headerEnd := by
    have hwhole : findHeaderEnd (last.take (headerEnd + 4) ++ last.drop (headerEnd + 4)) =
        some headerEnd := by rwa [List.take_append_drop]
    rw [htake]
    exact findHeaderEnd_append_iff.mpr ⟨hwhole, by rw [List.length_take]; omega⟩
  exact serve_ne_limit hfound

/-- Headers that exceed the limit by little are read by one split and refused by another. -/
theorem clear_of_splitIndependent (h : SplitIndependent maxBodyBytes closed stream) :
    ClearOfLimit maxBodyBytes stream := by
  intro last headerEnd hlast hend hover
  by_contra hjump
  obtain ⟨trace, ending, -, -, hall⟩ := h
  obtain ⟨before, later, first, rfl, hserve⟩ := hlast.serve_bytewise 0
  have houtcome (reads : List ReadEvent) (hreads : ∀ event ∈ reads, IsRead event)
      (hbytes : delivered reads = last) :
      (trace, ending) =
        (first ++ (serve maxBodyBytes later [] (reads ++ tailEvents closed)).1,
          (serve maxBodyBytes later [] (reads ++ tailEvents closed)).2) := by
    obtain ⟨enough, hpolls⟩ := hall (bytewise before ++ reads ++ tailEvents closed)
      ⟨bytewise before ++ reads, rfl, by
        intro event hevent
        exact (List.mem_append.mp hevent).elim (isRead_bytewise event) (hreads event), by
        rw [delivered_append, delivered_bytewise, hbytes]⟩ 0 false
    obtain ⟨enough', hserves⟩ := pollAll_enough maxBodyBytes 0 0 false (freshRead 0)
      (bytewise before ++ reads ++ tailEvents closed)
    rw [← hpolls _ (le_max_left enough enough'), hserves _ (le_max_right enough enough'),
      List.append_assoc]
    exact hserve _ (by rw [delivered_append, delivered_tail, List.append_nil, hbytes])
  have hslow := houtcome _ isRead_bytewise (delivered_bytewise last)
  rw [serve_bytewise_limit hend hover] at hslow
  have hle := findHeaderEnd_le hend
  set chunk := (last.drop maxHeaderBytes).take (headerEnd + 4 - maxHeaderBytes)
  have hchunk : chunk.length = headerEnd + 4 - maxHeaderBytes := by
    simp only [chunk, List.length_take, List.length_drop]
    omega
  have hfast := houtcome (bytewise (last.take maxHeaderBytes) ++
      .data chunk :: bytewise (last.drop (headerEnd + 4))) ?_ ?_
  · rw [List.append_assoc, List.cons_append] at hfast
    obtain ⟨htrace, hending⟩ := Prod.mk.inj (hslow.symm.trans hfast)
    exact serve_jump hend hover (Prod.ext (List.append_cancel_left htrace).symm hending.symm)
  · intro event hevent
    rcases List.mem_append.mp hevent with hevent | hevent
    · exact isRead_bytewise event hevent
    · rcases List.mem_cons.mp hevent with rfl | hevent
      · exact ⟨List.length_pos_iff.mp (by omega), by omega⟩
      · exact isRead_bytewise event hevent
  · rw [delivered_append, delivered_bytewise, delivered, delivered_bytewise]
    have hsplit : chunk ++ last.drop (headerEnd + 4) = last.drop maxHeaderBytes := by
      have hdrop : last.drop (headerEnd + 4) =
          (last.drop maxHeaderBytes).drop (headerEnd + 4 - maxHeaderBytes) := by
        rw [List.drop_drop, Nat.add_sub_cancel' (by omega)]
      rw [hdrop, List.take_append_drop]
    rw [hsplit, List.take_append_drop]

/-- Polling reads a stream alike however it is split exactly if none of its requests has
    headers that exceed the limit by little. -/
theorem splitIndependent_iff (maxBodyBytes : Nat) (closed : Bool) (stream : List UInt8) :
    SplitIndependent maxBodyBytes closed stream ↔ ClearOfLimit maxBodyBytes stream :=
  ⟨clear_of_splitIndependent, splitIndependent_of_clear⟩

end Stream

/-- `GET / HTTP/1.1` with a host so long that the headers end two bytes over the limit. -/
def longRequest : List UInt8 :=
  71 :: 69 :: 84 :: 32 :: 47 :: 32 :: 72 :: 84 :: 84 :: 80 :: 47 :: 49 :: 46 :: 49 :: 13 :: 10 ::
    72 :: 111 :: 115 :: 116 :: 58 :: (List.replicate 65513 97 ++ blankLine)

theorem findHeaderEnd_replicate (n : Nat) :
    findHeaderEnd (List.replicate n 97 ++ blankLine) = some n := by
  induction n with
  | zero => rfl
  | succ n ih =>
    change (findHeaderEnd (List.replicate n 97 ++ blankLine)).map (· + 1) = some (n + 1)
    rw [ih]
    rfl

theorem longRequest_depends_on_split : ¬ SplitIndependent 1048576 true longRequest := by
  intro h
  have hend : findHeaderEnd longRequest = some 65534 := by
    have hhost := findHeaderEnd_replicate 65513
    unfold longRequest
    generalize List.replicate 65513 97 ++ blankLine = host at hhost ⊢
    simp [findHeaderEnd, hhost]
  have hclear := clear_of_splitIndependent h longRequest 65534 (.here _) hend (by decide)
  revert hclear
  decide

end FaberHosts.Http
