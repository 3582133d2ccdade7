import FaberHosts.Http.Wire
import FaberHosts.Lib.Fields

/-!
# The grammar of a request head

What `parse_headers` accepts, line by line.  A request line is three words; a header line
is a name and a value with white space around each; at most one header names the length
of the body.  Some forms are accepted only because of what the code leaves unchecked
(`slips`): control characters in the path or at the trimmed ends of a header line, and a
plus sign before the length.
-/

namespace FaberHosts.Http
open FaberHosts.Lib FaberHosts.Kernel

/-- No control character but tabs. -/
def isClean (text : List Char) : Bool := isValidHeaderValue (String.ofList text)

/-- The header has this name, in any case. -/
def named (name : String) (header : String × String) : Bool := eqIgnoreAsciiCase header.1 name

/-- Method, path and version with blanks around and between them. -/
structure RequestLine (slips : Prop) (line : List Char) (method path : String) : Prop where
  words : ∃ front gap gap' back, (∀ c ∈ front ++ gap ++ gap' ++ back, isAsciiWhitespace c) ∧
    gap ≠ [] ∧ gap' ≠ [] ∧
    line = front ++ method.toList ++ gap ++ path.toList ++ gap' ++ "HTTP/1.1".toList ++ back
  method : isToken method
  path_ne : path ≠ ""
  path_blank : ∀ c ∈ path.toList, isAsciiWhitespace c = false
  path_clean : slips ∨ isClean path.toList

/-- A name and a value around the first colon, each without the white space around it. -/
structure HeaderLine (slips : Prop) (line : List Char) (header : String × String) : Prop where
  colon : ∃ rawName rawValue, line = rawName ++ ':' :: rawValue ∧ ':' ∉ rawName ∧
    header = (String.ofList (trim rawName), String.ofList (trim rawValue)) ∧
    (slips ∨ (isClean rawName ∧ isClean rawValue))
  name : isToken header.1
  value : isValidHeaderValue header.2

/-- Decimal digits that write a number of 64 bits. -/
def Decimal (slips : Prop) (value : String) (n : Nat) : Prop :=
  ∃ digits, (value.toList = digits ∨ (slips ∧ value.toList = '+' :: digits)) ∧ digits ≠ [] ∧
    (∀ c ∈ digits, c.isDigit) ∧
    n = Nat.ofDigits 10 (digits.map (fun c => c.toNat - 48)).reverse ∧ n < 2 ^ 64

/-- The length the headers name, or none. -/
def BodyLength (slips : Prop) (headers : List (String × String)) (n : Nat) : Prop :=
  match headers.filter (named "content-length") with
  | [] => n = 0
  | [header] => Decimal slips header.2 n
  | _ => False

/-- The head of a request in these bytes, up to the first empty line. -/
structure Head (slips : Prop) (bytes : List UInt8) (parsed : ParsedHeaders) : Prop where
  lines : ∃ text, fromUtf8 bytes = some text ∧
    RequestLine slips ((crlfLines text.toList).headD []) parsed.method parsed.path ∧
    List.Forall₂ (HeaderLine slips) ((crlfLines text.toList).tail.takeWhile (· ≠ []))
      parsed.headers
  host : ∃ header ∈ parsed.headers, named "host" header
  transferEncoding : ∀ header ∈ parsed.headers, named "transfer-encoding" header = false
  length : BodyLength slips parsed.headers parsed.contentLength

/-! ## The request line -/

theorem splitAsciiWhitespace_eq_iff {line : List Char} {found : List String} :
    splitAsciiWhitespace line = found ↔
      Spells isAsciiWhitespace (found.map String.toList) line := by
  rw [← words_eq_iff]
  constructor
  · rintro rfl
    simp [splitAsciiWhitespace, words]
  · intro h
    have hmap := congrArg (List.map String.ofList) h
    simpa [splitAsciiWhitespace, words, Function.comp_def] using hmap

theorem isWord_token {text : String} (h : isToken text) : IsWord isAsciiWhitespace text.toList := by
  obtain ⟨hne, htoken⟩ : text ≠ "" ∧ text.toList.all isTokenChar = true := by
    simpa [isToken] using h
  refine ⟨by simpa using hne, fun c hc => ?_⟩
  have hc := List.all_eq_true.mp htoken c hc
  cases hblank : isAsciiWhitespace c with
  | false => rfl
  | true =>
    have hblank : c ∈ [' ', '\t', '\n', '\x0c', '\r'] := of_decide_eq_true hblank
    simp only [List.mem_cons, List.not_mem_nil, or_false] at hblank
    rcases hblank with rfl | rfl | rfl | rfl | rfl <;> cases hc

theorem isWord_path {path : String} (hne : path ≠ "")
    (hpath : ∀ c ∈ path.toList, isAsciiWhitespace c = false) :
    IsWord isAsciiWhitespace path.toList := ⟨by simpa using hne, hpath⟩

/-- The three words of a request line, and the blanks it needs between them. -/
theorem spells_request {line method path version : List Char}
    (hmethod : IsWord isAsciiWhitespace method) (hpath : IsWord isAsciiWhitespace path)
    (hversion : IsWord isAsciiWhitespace version) :
    Spells isAsciiWhitespace [method, path, version] line ↔
      ∃ front gap gap' back, (∀ c ∈ front ++ gap ++ gap' ++ back, isAsciiWhitespace c) ∧
        gap ≠ [] ∧ gap' ≠ [] ∧
        line = front ++ method ++ gap ++ path ++ gap' ++ version ++ back := by
  simp only [Spells]
  constructor
  · rintro ⟨front, _, rfl, hfront, -, hgapHead, gap, _, rfl, hgap, -, hgapHead', gap', back, rfl,
      hgap', -, -, hback⟩
    refine ⟨front, gap, gap', back, ?_, (head?_gap_iff hgap hpath).mp hgapHead,
      (head?_gap_iff hgap' hversion).mp hgapHead', by simp⟩
    simp only [List.mem_append]
    rintro c (((hc | hc) | hc) | hc)
    exacts [hfront c hc, hgap c hc, hgap' c hc, hback c hc]
  · rintro ⟨front, gap, gap', back, hblank, hne, hne', rfl⟩
    have hfront : ∀ c ∈ front, isAsciiWhitespace c := fun c hc => hblank c (by simp [hc])
    have hgap : ∀ c ∈ gap, isAsciiWhitespace c := fun c hc => hblank c (by simp [hc])
    have hgap' : ∀ c ∈ gap', isAsciiWhitespace c := fun c hc => hblank c (by simp [hc])
    have hback : ∀ c ∈ back, isAsciiWhitespace c := fun c hc => hblank c (by simp [hc])
    refine ⟨front, gap ++ (path ++ (gap' ++ (version ++ back))), by simp, hfront, hmethod,
      (head?_gap_iff hgap hpath).mpr hne, gap, gap' ++ (version ++ back), rfl, hgap, hpath,
      (head?_gap_iff hgap' hversion).mpr hne', gap', back, rfl, hgap', hversion, ?_, hback⟩
    exact fun c hc => hback c (List.mem_of_mem_head? hc)

theorem parseRequestLine_ok_iff_words {line : List Char} {method path : String} :
    parseRequestLine line = .ok (method, path) ↔
      splitAsciiWhitespace line = [method, path, "HTTP/1.1"] ∧ isToken method := by
  rw [parseRequestLine]
  split
  · next hnone => simp [hnone]
  · next first rest hwords =>
    rw [hwords]
    by_cases htoken : isToken first = true
    · rw [if_neg (not_not.mpr htoken)]
      cases rest with
      | nil => simp
      | cons second version =>
        dsimp only
        split
        · next hversion =>
          subst hversion
          simp only [Except.ok.injEq, Prod.mk.injEq, List.cons.injEq, and_true]
          exact ⟨fun ⟨hfirst, hsecond⟩ => ⟨⟨hfirst, hsecond⟩, hfirst ▸ htoken⟩, fun h => h.1⟩
        · next hversion =>
          simp only [List.cons.injEq, reduceCtorEq, false_iff]
          exact fun h => hversion h.1.2.2
    · rw [if_pos htoken]
      simp only [List.cons.injEq, reduceCtorEq, false_iff]
      exact fun h => htoken (h.1.1 ▸ h.2)

theorem parseRequestLine_ok_iff {line : List Char} {method path : String} :
    parseRequestLine line = .ok (method, path) ↔ RequestLine True line method path := by
  rw [parseRequestLine_ok_iff_words, splitAsciiWhitespace_eq_iff]
  have hversion : IsWord isAsciiWhitespace "HTTP/1.1".toList :=
    ⟨by decide, by simp [isAsciiWhitespace]⟩
  constructor
  · rintro ⟨hspells, htoken⟩
    have hpath : IsWord isAsciiWhitespace path.toList := by
      obtain ⟨-, -, -, -, -, -, -, -, -, -, hpath, -⟩ := hspells
      exact hpath
    exact ⟨(spells_request (isWord_token htoken) hpath hversion).mp hspells, htoken,
      by simpa using hpath.ne_nil, hpath.solid, .inl trivial⟩
  · rintro ⟨hwords, htoken, hne, hsolid, -⟩
    exact ⟨(spells_request (isWord_token htoken) (isWord_path hne hsolid) hversion).mpr hwords,
      htoken⟩

/-! ## The header lines -/

theorem splitOnceColon_eq_some_iff {line rawName rawValue : List Char} :
    splitOnceColon line = some (rawName, rawValue) ↔
      line = rawName ++ ':' :: rawValue ∧ ':' ∉ rawName := by
  rw [splitOnceColon]
  constructor
  · intro h
    split at h
    · next hmem =>
      obtain ⟨hsplit, hbefore⟩ := first_separator hmem
      cases h
      exact ⟨hsplit, hbefore⟩
    · cases h
  · rintro ⟨rfl, hcolon⟩
    rw [if_pos (by simp), takeWhile_ne_append hcolon, dropWhile_ne_append hcolon]
    rfl

theorem unsigned_eq_iff {text digits : List Char} (hne : digits ≠ [])
    (hdigits : ∀ c ∈ digits, c.isDigit) :
    (if text.head? = some '+' then text.tail else text) = digits ↔
      text = digits ∨ (True ∧ text = '+' :: digits) := by
  match text with
  | [] => simp [hne.symm]
  | c :: rest =>
    by_cases hplus : c = '+'
    · subst hplus
      have hdigit : '+' :: rest ≠ digits := fun h => by
        have hsign := hdigits '+' (h ▸ List.mem_cons_self)
        cases hsign
      simp [hdigit]
    · simp [hplus]

theorem parseUsize_eq_some_iff {value : String} {n : Nat} :
    parseUsize value = some n ↔ Decimal True value n := by
  have hnumber : ∀ digits : List Char,
      digits.foldl (fun n c => 10 * n + (c.toNat - 48)) 0 =
        Nat.ofDigits 10 (digits.map (fun c => c.toNat - 48)).reverse := fun digits => by
    have hfold := foldl_digits_eq_ofDigits (digits.map (fun c => c.toNat - 48)) 0
    rw [List.foldl_map] at hfold
    simpa using hfold
  simp only [parseUsize, hnumber]
  constructor
  · intro h
    generalize hunsigned :
      (if value.toList.head? = some '+' then value.toList.tail else value.toList) = digits at h
    split at h
    · cases h
    · next hdigits =>
      obtain ⟨hne, hall⟩ := not_or.mp hdigits
      have hall := List.all_eq_true.mp (not_not.mp hall)
      split at h
      · next hlt =>
        cases h
        exact ⟨digits, (unsigned_eq_iff hne hall).mp hunsigned, hne, hall, rfl, hlt⟩
      · cases h
  · rintro ⟨digits, hvalue, hne, hall, rfl, hlt⟩
    rw [(unsigned_eq_iff hne hall).mpr hvalue, if_neg, if_pos hlt]
    rintro (hnil | hnot)
    · exact hne hnil
    · exact hnot (List.all_eq_true.mpr hall)

/-- What the header lines leave of the length, given what was read of it before. -/
def ScansLength : Option Nat → List (String × String) → Option Nat → Prop
  | length, [], after => after = length
  | some _, _ :: _, _ => False
  | none, header :: rest, after => ∃ n, Decimal True header.2 n ∧ ScansLength (some n) rest after

theorem scansLength_cons {length after : Option Nat} {header : String × String}
    {rest : List (String × String)} :
    ScansLength length (header :: rest) after ↔
      ∃ next, ScansLength length [header] next ∧ ScansLength next rest after := by
  cases length with
  | some n => simp [ScansLength]
  | none =>
    simp only [ScansLength]
    constructor
    · rintro ⟨n, hn, hrest⟩
      exact ⟨some n, ⟨n, hn, rfl⟩, hrest⟩
    · rintro ⟨_, ⟨n, hn, rfl⟩, hrest⟩
      exact ⟨n, hn, hrest⟩

theorem scansLength_filter_cons {length after : Option Nat} {header : String × String}
    {rest : List (String × String)} {p : String × String → Bool} :
    ScansLength length ((header :: rest).filter p) after ↔
      ∃ next, ScansLength length ([header].filter p) next ∧
        ScansLength next (rest.filter p) after := by
  cases hp : p header with
  | true =>
    rw [List.filter_cons_of_pos hp, List.filter_cons_of_pos hp]
    exact scansLength_cons
  | false =>
    have hnot : ¬ p header = true := by simp [hp]
    rw [List.filter_cons_of_neg hnot, List.filter_cons_of_neg hnot]
    simp [ScansLength]

theorem bodyLength_iff {headers : List (String × String)} {n : Nat} :
    BodyLength True headers n ↔
      ∃ length, ScansLength none (headers.filter (named "content-length")) length ∧
        length.getD 0 = n := by
  unfold BodyLength
  split
  · next hnone => simp [hnone, ScansLength, eq_comm]
  · next header hone =>
    rw [hone]
    constructor
    · intro hn
      exact ⟨some n, ⟨n, hn, rfl⟩, rfl⟩
    · rintro ⟨_, ⟨n', hn', rfl⟩, rfl⟩
      exact hn'
  · next hnone hone =>
    simp only [false_iff]
    rintro ⟨length, hscans, -⟩
    match hfilter : headers.filter (named "content-length") with
    | [] => exact hnone hfilter
    | [header] => exact hone header hfilter
    | first :: second :: rest =>
      rw [hfilter] at hscans
      obtain ⟨_, -, hrest⟩ := hscans
      exact hrest

theorem scanHeader_ok_iff {scan next : HeaderScan} {line : List Char} :
    scanHeader scan line = .ok next ↔
      ∃ header, HeaderLine True line header ∧ named "transfer-encoding" header = false ∧
        next.headers = scan.headers ++ [header] ∧
        next.hasHost = (scan.hasHost || named "host" header) ∧
        ScansLength scan.contentLength ([header].filter (named "content-length"))
          next.contentLength := by
  obtain ⟨headers, length, hasHost⟩ := next
  rw [scanHeader]
  split
  · next hnone =>
    simp only [reduceCtorEq, false_iff]
    rintro ⟨header, ⟨⟨rawName, rawValue, hline, hcolon, -⟩, -, -⟩, -⟩
    rw [splitOnceColon_eq_some_iff.mpr ⟨hline, hcolon⟩] at hnone
    cases hnone
  · next rawName rawValue hsplit =>
    have hline := splitOnceColon_eq_some_iff.mp hsplit
    -- the header is the one the line holds
    have honly : ∀ header, HeaderLine True line header ↔
        header = (String.ofList (trim rawName), String.ofList (trim rawValue)) ∧
          isToken header.1 ∧ isValidHeaderValue header.2 := by
      intro header
      constructor
      · rintro ⟨⟨rawName', rawValue', hline', hcolon', hheader, -⟩, hname, hvalue⟩
        rw [splitOnceColon_eq_some_iff.mpr ⟨hline', hcolon'⟩] at hsplit
        cases hsplit
        exact ⟨hheader, hname, hvalue⟩
      · rintro ⟨hheader, hname, hvalue⟩
        exact ⟨⟨rawName, rawValue, hline.1, hline.2, hheader, .inl trivial⟩, hname, hvalue⟩
    simp only [honly, and_assoc, exists_eq_left]
    generalize String.ofList (trim rawName) = name
    generalize String.ofList (trim rawValue) = value
    split
    · next hbad =>
      simp only [reduceCtorEq, false_iff]
      rintro ⟨hname, hvalue, -⟩
      exact hbad.elim (· hname) (· hvalue)
    · next hgood =>
      obtain ⟨hname, hvalue⟩ := not_or.mp hgood
      split
      · next hencoding => simp [named, hencoding]
      · next hencoding =>
        have hencoding : named "transfer-encoding" (name, value) = false :=
          Bool.eq_false_iff.mpr hencoding
        split
        · next hlength =>
          have hfilter : [(name, value)].filter (named "content-length") = [(name, value)] := by
            simp [named, hlength]
          rw [hfilter]
          split
          · next hnumber =>
            simp only [reduceCtorEq, false_iff]
            rintro ⟨-, -, -, -, -, hscans⟩
            cases hseen : scan.contentLength with
            | some m =>
              rw [hseen] at hscans
              exact hscans
            | none =>
              rw [hseen] at hscans
              obtain ⟨n, hn, -⟩ := hscans
              rw [parseUsize_eq_some_iff.mpr hn] at hnumber
              cases hnumber
          · next n hnumber =>
            cases hseen : scan.contentLength with
            | some m => simp [ScansLength]
            | none =>
              constructor
              · intro h
                cases h
                exact ⟨not_not.mp hname, not_not.mp hvalue, hencoding, rfl, rfl, n,
                  parseUsize_eq_some_iff.mp hnumber, rfl⟩
              · rintro ⟨-, -, -, rfl, rfl, n', hn', rfl⟩
                rw [parseUsize_eq_some_iff.mpr hn'] at hnumber
                cases hnumber
                rfl
        · next hlength =>
          have hfilter : [(name, value)].filter (named "content-length") = [] := by
            simp [named, hlength]
          rw [hfilter]
          constructor
          · intro h
            cases h
            exact ⟨not_not.mp hname, not_not.mp hvalue, hencoding, rfl, rfl, rfl⟩
          · rintro ⟨-, -, -, rfl, rfl, rfl⟩
            rfl

theorem foldlM_scanHeader_ok_iff {scan after : HeaderScan} {lines : List (List Char)} :
    lines.foldlM scanHeader scan = .ok after ↔
      ∃ headers, List.Forall₂ (HeaderLine True) lines headers ∧
        (∀ header ∈ headers, named "transfer-encoding" header = false) ∧
        after.headers = scan.headers ++ headers ∧
        after.hasHost = (scan.hasHost || headers.any (named "host")) ∧
        ScansLength scan.contentLength (headers.filter (named "content-length"))
          after.contentLength := by
  induction lines generalizing scan with
  | nil =>
    obtain ⟨headers, length, hasHost⟩ := after
    obtain ⟨headers', length', hasHost'⟩ := scan
    simp only [List.foldlM_nil, pure, Except.pure, Except.ok.injEq, HeaderScan.mk.injEq,
      List.forall₂_nil_left_iff, exists_eq_left]
    constructor
    · rintro ⟨rfl, rfl, rfl⟩
      exact ⟨nofun, (List.append_nil _).symm, (Bool.or_false _).symm, rfl⟩
    · rintro ⟨-, hheaders, hhost, hlength⟩
      exact ⟨(hheaders.trans (List.append_nil _)).symm, hlength.symm,
        (hhost.trans (Bool.or_false _)).symm⟩
  | cons line lines ih =>
    rw [List.foldlM_cons, bind_ok_iff]
    simp only [scanHeader_ok_iff, ih, List.forall₂_cons_left_iff]
    constructor
    · rintro ⟨next, ⟨header, hline, hencoding, hheaders, hhost, hlength⟩, headers, hlines,
        hencodings, hheaders', hhost', hlength'⟩
      refine ⟨header :: headers, ⟨header, headers, hline, hlines, rfl⟩,
        List.forall_mem_cons.mpr ⟨hencoding, hencodings⟩, ?_, ?_, ?_⟩
      · rw [hheaders', hheaders, List.append_assoc]
        rfl
      · rw [hhost', hhost, Bool.or_assoc]
        rfl
      · exact scansLength_filter_cons.mpr ⟨next.contentLength, hlength, hlength'⟩
    · rintro ⟨_, ⟨header, headers, hline, hlines, rfl⟩, hencoding, hheaders, hhost, hlength⟩
      obtain ⟨length, hfirst, hrest⟩ := scansLength_filter_cons.mp hlength
      obtain ⟨hencoding, hencodings⟩ := List.forall_mem_cons.mp hencoding
      refine ⟨⟨scan.headers ++ [header], length, scan.hasHost || named "host" header⟩,
        ⟨header, hline, hencoding, rfl, rfl, hfirst⟩, headers, hlines, hencodings, ?_, ?_, hrest⟩
      · rw [hheaders, List.append_assoc]
        rfl
      · rw [hhost, List.any_cons, Bool.or_assoc]

/-! ## The head -/

theorem parseHeaders_ok_iff {bytes : List UInt8} {parsed : ParsedHeaders} :
    parseHeaders bytes = .ok parsed ↔ Head True bytes parsed := by
  obtain ⟨method, path, headers, length⟩ := parsed
  rw [parseHeaders]
  split
  · next hnone =>
    simp only [reduceCtorEq, false_iff]
    rintro ⟨⟨text, htext, -⟩, -⟩
    rw [hnone] at htext
    cases htext
  · next text htext =>
    constructor
    · intro h
      obtain ⟨⟨method', path'⟩, hline, hrest⟩ := bind_ok_iff.mp h
      obtain ⟨scan, hscan, hrest⟩ := bind_ok_iff.mp hrest
      obtain ⟨headers', hlines, hencoding, hheaders, hhost, hscans⟩ :=
        foldlM_scanHeader_ok_iff.mp hscan
      split at hrest
      · cases hrest
      · next hhas =>
        cases hrest
        obtain rfl : scan.headers = headers' := hheaders
        rw [hhost] at hhas
        exact ⟨⟨text, htext, parseRequestLine_ok_iff.mp hline, hlines⟩,
          List.any_eq_true.mp (not_not.mp hhas), hencoding, bodyLength_iff.mpr ⟨_, hscans, rfl⟩⟩
    · rintro ⟨⟨text', htext', hline, hlines⟩, hhost, hencoding, hlength⟩
      rw [htext] at htext'
      cases htext'
      obtain ⟨scanned, hscans, hlength⟩ := bodyLength_iff.mp hlength
      have hscan : ((crlfLines text.toList).tail.takeWhile (· ≠ [])).foldlM scanHeader
          ⟨[], none, false⟩ = .ok ⟨headers, scanned, true⟩ :=
        foldlM_scanHeader_ok_iff.mpr
          ⟨headers, hlines, hencoding, rfl, (List.any_eq_true.mpr hhost).symm, hscans⟩
      refine bind_ok_iff.mpr ⟨(method, path), parseRequestLine_ok_iff.mpr hline, ?_⟩
      refine bind_ok_iff.mpr ⟨_, hscan, ?_⟩
      rw [if_neg (by simp)]
      exact congrArg (fun n => Except.ok (ParsedHeaders.mk method path headers n)) hlength

section Mono

variable {slips slips' : Prop} (himp : slips → slips')
include himp

theorem RequestLine.mono {line : List Char} {method path : String}
    (h : RequestLine slips line method path) : RequestLine slips' line method path :=
  { h with path_clean := h.path_clean.imp_left himp }

theorem HeaderLine.mono {line : List Char} {header : String × String}
    (h : HeaderLine slips line header) : HeaderLine slips' line header := by
  obtain ⟨rawName, rawValue, hline, hcolon, hheader, hclean⟩ := h.colon
  exact ⟨⟨rawName, rawValue, hline, hcolon, hheader, hclean.imp_left himp⟩, h.name, h.value⟩

theorem Decimal.mono {value : String} {n : Nat} (h : Decimal slips value n) :
    Decimal slips' value n := by
  obtain ⟨digits, hvalue, hdigits⟩ := h
  exact ⟨digits, hvalue.imp_right (And.imp_left himp), hdigits⟩

theorem BodyLength.mono {headers : List (String × String)} {n : Nat}
    (h : BodyLength slips headers n) : BodyLength slips' headers n := by
  unfold BodyLength at h ⊢
  split
  · next hnone => simpa [hnone] using h
  · next header hone =>
    rw [hone] at h
    exact Decimal.mono himp h
  · next hnone hone =>
    split at h
    · next hfilter => exact hnone hfilter
    · next header hfilter => exact hone header hfilter
    · exact h

theorem Head.mono {bytes : List UInt8} {parsed : ParsedHeaders} (h : Head slips bytes parsed) :
    Head slips' bytes parsed := by
  obtain ⟨text, htext, hline, hlines⟩ := h.lines
  exact ⟨⟨text, htext, hline.mono himp, hlines.imp fun _ _ => HeaderLine.mono himp⟩, h.host,
    h.transferEncoding, h.length.mono himp⟩

end Mono

/-- What `parse_headers` accepts is a head, and it accepts every head without a slip. -/
theorem parseHeaders_accepts_heads (bytes : List UInt8) (parsed : ParsedHeaders) :
    (parseHeaders bytes = .ok parsed → Head True bytes parsed) ∧
      (Head False bytes parsed → parseHeaders bytes = .ok parsed) :=
  ⟨parseHeaders_ok_iff.mp, fun h => parseHeaders_ok_iff.mpr (h.mono False.elim)⟩

/-- A head without a slip. -/
theorem parseHeaders_accepts_plain :
    parseHeaders (plainRequest.take 21) = .ok ⟨"GET", "/", [("Host", "")], 0⟩ := by
  refine (parseHeaders_accepts_heads _ _).2 ⟨⟨"GET / HTTP/1.1\r\nHost:", by decide +kernel,
    ⟨⟨[], [' '], [' '], [], by simp [isAsciiWhitespace], by decide, by decide, by decide +kernel⟩,
      by decide +kernel, by decide, by simp [isAsciiWhitespace], .inr (by decide +kernel)⟩, ?_⟩,
    by decide +kernel, by decide +kernel, rfl⟩
  rw [show (crlfLines "GET / HTTP/1.1\r\nHost:".toList).tail.takeWhile (· ≠ []) =
    ["Host:".toList] by decide +kernel]
  refine .cons ⟨⟨"Host".toList, [], ?_, ?_, ?_, ?_⟩, ?_, ?_⟩ .nil
  all_goals decide +kernel

/-- `GET / HTTP/1.1` with the header line `Host : a`. -/
def spacedHost : List UInt8 :=
  [71, 69, 84, 32, 47, 32, 72, 84, 84, 80, 47, 49, 46, 49, 13, 10, 72, 111, 115, 116, 32, 58, 32,
    97]

/-- The name of a header line need not stand right before the colon. -/
theorem blank_before_colon_accepted :
    ∃ parsed text line, parseHeaders spacedHost = .ok parsed ∧ fromUtf8 spacedHost = some text ∧
      line ∈ (crlfLines text.toList).tail.takeWhile (· ≠ []) ∧
      ¬ ∃ name value, line = String.toList name ++ ':' :: value ∧ isToken name := by
  refine ⟨⟨"GET", "/", [("Host", "a")], 0⟩, "GET / HTTP/1.1\r\nHost : a", "Host : a".toList,
    by decide +kernel, by decide +kernel, by decide +kernel, ?_⟩
  rintro ⟨name, value, hline, htoken⟩
  obtain ⟨-, hchars⟩ : name ≠ "" ∧ name.toList.all isTokenChar = true := by
    simpa [isToken] using htoken
  have hcolon : ':' ∉ name.toList := fun hmem => by
    have hbad := List.all_eq_true.mp hchars ':' hmem
    cases hbad
  have hsplit := splitOnceColon_eq_some_iff.mpr ⟨hline, hcolon⟩
  have hname : name.toList = "Host ".toList := by
    have hspaced : splitOnceColon "Host : a".toList = some ("Host ".toList, " a".toList) := by
      decide
    rw [hspaced] at hsplit
    exact (congrArg Prod.fst (Option.some.inj hsplit)).symm
  rw [hname] at hchars
  exact absurd hchars (by decide)

end FaberHosts.Http
