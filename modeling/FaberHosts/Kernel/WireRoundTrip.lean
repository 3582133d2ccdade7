import FaberHosts.Kernel.Valor

/-!
# Values survive the wire

A value encodes exactly when no `magnus` and no infinite or NaN `fractus` is
anywhere in it, and decoding what it encodes to gives it back.
-/

namespace FaberHosts.Kernel
open FaberHosts.Lib

namespace Valor

mutual

/-- No `magnus` and no non-finite `fractus` at any depth. -/
def Encodable : Valor → Prop
  | .magnus _ => False
  | .fractus f => f.isFinite = true
  | .lista items => AllEncodable items
  | .tabula entries => EntriesEncodable entries
  | _ => True

def AllEncodable : List Valor → Prop
  | [] => True
  | item :: rest => item.Encodable ∧ AllEncodable rest

def EntriesEncodable : List (String × Valor) → Prop
  | [] => True
  | (_, value) :: rest => value.Encodable ∧ EntriesEncodable rest

end

theorem allEncodable_iff {items : List Valor} :
    AllEncodable items ↔ ∀ item ∈ items, item.Encodable := by
  induction items with
  | nil => simp [AllEncodable]
  | cons item rest ih => rw [AllEncodable, ih, List.forall_mem_cons]

theorem entriesEncodable_iff {entries : List (String × Valor)} :
    EntriesEncodable entries ↔ ∀ entry ∈ entries, entry.2.Encodable := by
  induction entries with
  | nil => simp [EntriesEncodable]
  | cons entry rest ih => rw [EntriesEncodable, ih, List.forall_mem_cons]

end Valor

variable {T : WireText}

/-! ## When encoding succeeds -/

theorem valorsToJson_succeeds_iff {items : List Valor} :
    (∃ out, valorsToJson T items = .ok out) ↔
      ∀ item ∈ items, ∃ json, valorToJson T item = .ok json := by
  induction items with
  | nil => simp [valorsToJson]
  | cons item rest ih =>
    rw [List.forall_mem_cons, ← ih, valorsToJson]
    cases valorToJson T item with
    | error e => simp [bind, Except.bind]
    | ok json => cases valorsToJson T rest <;> simp [bind, Except.bind]

theorem tabulaToJson_succeeds_iff {entries : List (String × Valor)} {out : List (String × Json)} :
    (∃ t, tabulaToJson T entries out = .ok t) ↔
      ∀ entry ∈ entries, ∃ json, valorToJson T entry.2 = .ok json := by
  induction entries generalizing out with
  | nil => simp [tabulaToJson]
  | cons entry rest ih =>
    rw [List.forall_mem_cons, tabulaToJson]
    cases valorToJson T entry.2 with
    | error e => simp [bind, Except.bind]
    | ok json => simp [bind, Except.bind, ih]

theorem valorToJson_succeeds_iff (v : Valor) :
    (∃ json, valorToJson T v = .ok json) ↔ v.Encodable := by
  induction v using Valor.inductionDown with
  | nihil => simp [valorToJson, Valor.Encodable]
  | bivalens b => simp [valorToJson, Valor.Encodable]
  | numerus n => simp [valorToJson, Valor.Encodable]
  | magnus n => simp [valorToJson, Valor.Encodable]
  | fractus f => by_cases h : f.isFinite <;> simp [valorToJson, Valor.Encodable, Number.fromF64, h]
  | textus s => simp [valorToJson, Valor.Encodable]
  | octeti bytes => simp [valorToJson, Valor.Encodable]
  | instans t => simp [valorToJson, Valor.Encodable]
  | lista items ih =>
    have hall : (∃ out, valorsToJson T items = .ok out) ↔ ∀ item ∈ items, item.Encodable :=
      valorsToJson_succeeds_iff.trans (forall₂_congr ih)
    rw [Valor.Encodable, Valor.allEncodable_iff, ← hall, valorToJson]
    cases valorsToJson T items <;> simp [bind, Except.bind]
  | tabula entries ih =>
    have hall : (∃ out, tabulaToJson T entries [] = .ok out) ↔
        ∀ entry ∈ entries, entry.2.Encodable :=
      tabulaToJson_succeeds_iff.trans (forall₂_congr ih)
    rw [Valor.Encodable, Valor.entriesEncodable_iff, ← hall, valorToJson]
    cases tabulaToJson T entries [] <;> simp [bind, Except.bind]

/-! ## What decoding gives back -/

/-- A value that encodes to `json` is what `json` decodes to. -/
def Inverts (T : WireText) (v : Valor) : Prop :=
  ∀ json, valorToJson T v = .ok json → jsonToValor T json = .ok v

theorem jsonsToValors_of_inverts {items : List Valor} (h : ∀ item ∈ items, Inverts T item)
    {out : List Json} (hout : valorsToJson T items = .ok out) :
    jsonsToValors T out = .ok items := by
  induction items generalizing out with
  | nil =>
    cases hout
    rw [jsonsToValors]
  | cons item rest ih =>
    obtain ⟨hitem, hrest⟩ := List.forall_mem_cons.mp h
    rw [valorsToJson] at hout
    cases hjson : valorToJson T item with
    | error e => simp [hjson, bind, Except.bind] at hout
    | ok json =>
      cases hjsons : valorsToJson T rest with
      | error e => simp [hjson, hjsons, bind, Except.bind] at hout
      | ok jsons =>
        simp only [hjson, hjsons, bind, Except.bind, Except.ok.injEq] at hout
        subst hout
        rw [jsonsToValors, hitem json hjson, ih hrest hjsons]
        rfl

theorem tabulaToJson_of_ordered {entries : List (String × Valor)} {out t : List (String × Json)}
    (hordered : OrderedEntries entries)
    (hbefore : ∀ o ∈ out, ∀ entry ∈ entries, o.1 < entry.1)
    (h : tabulaToJson T entries out = .ok t) :
    ∃ jsons, t = out ++ jsons ∧
      List.Forall₂ (fun entry json => json.1 = entry.1 ∧ valorToJson T entry.2 = .ok json.2)
        entries jsons := by
  induction entries generalizing out with
  | nil =>
    cases h
    exact ⟨[], (List.append_nil _).symm, .nil⟩
  | cons entry rest ih =>
    obtain ⟨hfirst, hrest⟩ := List.pairwise_cons.mp hordered
    rw [tabulaToJson] at h
    cases hjson : valorToJson T entry.2 with
    | error e => simp [hjson, bind, Except.bind] at h
    | ok json =>
      simp only [hjson, bind, Except.bind] at h
      rw [insertEntry_of_last (fun o ho => hbefore o ho entry List.mem_cons_self)] at h
      have hnext : ∀ o ∈ out ++ [(entry.1, json)], ∀ later ∈ rest, o.1 < later.1 := by
        intro o ho later hlater
        rcases List.mem_append.mp ho with ho | ho
        · exact hbefore o ho later (List.mem_cons_of_mem _ hlater)
        · rw [List.mem_singleton.mp ho]
          exact hfirst later hlater
      obtain ⟨jsons, rfl, hjsons⟩ := ih hrest hnext h
      exact ⟨(entry.1, json) :: jsons, by simp, .cons ⟨rfl, hjson⟩ hjsons⟩

theorem plainTabula_of_ordered {entries out : List (String × Valor)} {jsons : List (String × Json)}
    (hordered : OrderedEntries entries)
    (hbefore : ∀ o ∈ out, ∀ entry ∈ entries, o.1 < entry.1)
    (h : List.Forall₂ (fun entry json => json.1 = entry.1 ∧ jsonToValor T json.2 = .ok entry.2)
      entries jsons) :
    plainTabula T jsons out = .ok (out ++ entries) := by
  induction h generalizing out with
  | nil => rw [plainTabula, List.append_nil]
  | @cons entry json rest jsons hhead _ ih =>
    obtain ⟨key, json⟩ := json
    obtain ⟨rfl, hvalue⟩ := hhead
    obtain ⟨hfirst, hrest⟩ := List.pairwise_cons.mp hordered
    have hnext : ∀ o ∈ out ++ [(entry.1, entry.2)], ∀ later ∈ rest, o.1 < later.1 := by
      intro o ho later hlater
      rcases List.mem_append.mp ho with ho | ho
      · exact hbefore o ho later (List.mem_cons_of_mem _ hlater)
      · rw [List.mem_singleton.mp ho]
        exact hfirst later hlater
    rw [plainTabula, hvalue]
    show plainTabula T jsons (insertEntry entry.1 entry.2 out) = _
    rw [insertEntry_of_last (fun o ho => hbefore o ho entry List.mem_cons_self), ih hrest hnext]
    simp

theorem inverted_entries {entries : List (String × Valor)} {jsons : List (String × Json)}
    (hinverts : ∀ entry ∈ entries, Inverts T entry.2)
    (h : List.Forall₂ (fun entry json => json.1 = entry.1 ∧ valorToJson T entry.2 = .ok json.2)
      entries jsons) :
    List.Forall₂ (fun entry json => json.1 = entry.1 ∧ jsonToValor T json.2 = .ok entry.2)
      entries jsons := by
  induction h with
  | nil => exact .nil
  | cons hhead _ ih =>
    obtain ⟨hfirst, hrest⟩ := List.forall_mem_cons.mp hinverts
    exact .cons ⟨hhead.1, hfirst _ hhead.2⟩ (ih hrest)

theorem decode_encodeTabula {jsons : List (String × Json)} {entries : List (String × Valor)}
    (h : plainTabula T jsons [] = .ok entries) :
    jsonToValor T (encodeTabula jsons) = .ok (.tabula entries) := by
  have hplain : (∀ key json, jsons = [(key, json)] → startsWithDollar key = false) →
      jsonToValor T (.object jsons) = .ok (.tabula entries) := by
    intro hkey
    rw [jsonToValor]
    rcases jsons with _ | ⟨⟨key, json⟩, _ | ⟨second, rest⟩⟩
    · rw [decodeObject, h]
      · rfl
      · simp
    · rw [plainTabula] at h
      rw [decodeObject, if_neg (by simp [hkey key json rfl])]
      cases hvalue : jsonToValor T json with
      | error e => simp [hvalue, bind, Except.bind] at h
      | ok value =>
        simp only [hvalue, bind, Except.bind, plainTabula, insertEntry, Except.ok.injEq] at h
        subst h
        rfl
    · rw [decodeObject, h]
      · rfl
      · simp
  have hwrapped : jsonToValor T (.object [(escapeTag, .object jsons)]) =
      .ok (.tabula entries) := by
    rw [jsonToValor, decodeObject, if_pos (by decide), decodeTagged, if_neg (by decide),
      if_neg (by decide), if_pos rfl, h]
    rfl
  unfold encodeTabula
  split
  · next key json =>
    split
    · exact hwrapped
    · next hkey =>
      refine hplain (fun key' json' heq => ?_)
      cases heq
      simpa using hkey
  · next hmany => exact hplain (fun key json heq => (hmany key json heq).elim)

theorem decodeByte_ofI64 (byte : UInt8) :
    decodeByte T (.number (.ofI64 byte.toUInt64.toInt64)) = .ok byte := by
  have hlt := byte.toNat_lt
  have hnat : byte.toUInt64.toNat = byte.toNat := UInt8.toNat_toUInt64 byte
  have hbits : byte.toUInt64.toInt64.toInt = (byte.toUInt64.toNat : Int).bmod (2 ^ 64) :=
    BitVec.toInt_eq_toNat_bmod byte.toUInt64.toBitVec
  have hzero : (0 : Int64).toInt = 0 := rfl
  have hnonneg : ¬ byte.toUInt64.toInt64 < 0 := by
    rw [Int64.lt_iff_toInt_lt, hbits, hzero, hnat, Int.bmod_def]
    split <;> omega
  have hlimit : (255 : UInt64).toNat = 255 := rfl
  have hsmall : byte.toUInt64 ≤ 255 := by
    rw [UInt64.le_iff_toNat_le, hnat, hlimit]
    omega
  simp [decodeByte, Number.ofI64, hnonneg, Number.asU64, hsmall]

theorem mapM_decodeByte (bytes : List UInt8) :
    (bytes.map fun byte => Json.number (.ofI64 byte.toUInt64.toInt64)).mapM (decodeByte T) =
      .ok bytes := by
  induction bytes with
  | nil => rfl
  | cons byte rest ih =>
    rw [List.map_cons, List.mapM_cons, decodeByte_ofI64, ih]
    rfl

theorem valorToJson_inverts (v : Valor) (hordered : v.Ordered) : Inverts T v := by
  induction v using Valor.inductionDown with
  | nihil =>
    intro json h
    cases h
    rw [jsonToValor]
  | bivalens b =>
    intro json h
    cases h
    rw [jsonToValor]
  | numerus n =>
    intro json h
    cases h
    rw [jsonToValor, Number.asI64_ofI64]
  | magnus n =>
    intro json h
    cases h
  | fractus f =>
    intro json h
    by_cases hfinite : f.isFinite
    · simp only [valorToJson, hfinite, if_true, Number.fromF64, Except.ok.injEq] at h
      subst h
      rw [jsonToValor]
      rfl
    · simp [valorToJson, hfinite] at h
  | textus s =>
    intro json h
    cases h
    rw [jsonToValor]
  | octeti bytes =>
    intro json h
    cases h
    rw [jsonToValor, decodeObject, if_pos (by decide), decodeTagged, if_neg (by decide),
      if_pos rfl, mapM_decodeByte]
    rfl
  | instans t =>
    intro json h
    cases h
    rw [jsonToValor, decodeObject, if_pos (by decide), decodeTagged, if_pos rfl]
  | lista items ih =>
    intro json h
    rw [valorToJson] at h
    cases hout : valorsToJson T items with
    | error e => simp [hout, bind, Except.bind] at h
    | ok out =>
      simp only [hout, bind, Except.bind, Except.ok.injEq] at h
      subst h
      have hinverts : ∀ item ∈ items, Inverts T item := fun item hitem =>
        ih item hitem (Valor.allOrdered_iff.mp hordered item hitem)
      rw [jsonToValor, jsonsToValors_of_inverts hinverts hout]
      rfl
  | tabula entries ih =>
    intro json h
    rw [valorToJson] at h
    cases hout : tabulaToJson T entries [] with
    | error e => simp [hout, bind, Except.bind] at h
    | ok out =>
      simp only [hout, bind, Except.bind, Except.ok.injEq] at h
      subst h
      obtain ⟨hkeys, hvalues⟩ := hordered
      obtain ⟨jsons, rfl, hjsons⟩ := tabulaToJson_of_ordered hkeys (by simp) hout
      refine decode_encodeTabula (plainTabula_of_ordered hkeys (by simp) ?_)
      refine inverted_entries (fun entry hentry => ?_) hjsons
      exact ih entry hentry (Valor.entriesOrdered_iff.mp hvalues entry hentry)

/-- A value encodes exactly when it holds no `magnus` and no non-finite `fractus`; what
    it encodes to decodes to the same value, so distinct values encode differently. -/
theorem wire_roundTrip (T : WireText) (v : OrderedValor) :
    ((∃ json, valorToJson T v = .ok json) ↔ v.1.Encodable) ∧
    (∀ json, valorToJson T v = .ok json → jsonToValor T json = .ok v.1) ∧
    ∀ (w : OrderedValor) (json : Json), valorToJson T v = .ok json →
      valorToJson T w = .ok json → v = w := by
  refine ⟨valorToJson_succeeds_iff v.1, valorToJson_inverts v.1 v.2, ?_⟩
  intro w json hv hw
  have hsame := (valorToJson_inverts v.1 v.2 json hv).symm.trans
    (valorToJson_inverts w.1 w.2 json hw)
  exact Subtype.ext (Except.ok.inj hsame)

end FaberHosts.Kernel
