import Mathlib.Data.List.Basic

/-!
# Buffered readers and slotted tables

Bytes that have arrived wait in a queue until a read moves them.  A read takes from the
buffer if it holds anything; otherwise it fills the buffer from the queue, up to the
capacity, or takes from the queue itself when it asks for at least that much.
-/

namespace FaberHosts.Lib

structure BufferedReader (α : Type) where
  queue : List α
  buffer : List α
  deriving DecidableEq, Repr

namespace BufferedReader

variable {α : Type}

/-- What has arrived and was not read, in order. -/
def unread (reader : BufferedReader α) : List α := reader.buffer ++ reader.queue

/-- The buffer holds something, or as much of the queue as it has room for. -/
def fill (capacity : Nat) (reader : BufferedReader α) : BufferedReader α :=
  if reader.buffer.isEmpty then ⟨reader.queue.drop capacity, reader.queue.take capacity⟩ else reader

/-- Take at most so many. -/
def read (capacity length : Nat) (reader : BufferedReader α) :
    List α × BufferedReader α :=
  if reader.buffer.isEmpty ∧ capacity ≤ length then
    (reader.queue.take length, ⟨reader.queue.drop length, []⟩)
  else
    let filled := reader.fill capacity
    (filled.buffer.take length, ⟨filled.queue, filled.buffer.drop length⟩)

variable {capacity length : Nat} {reader : BufferedReader α}

theorem unread_fill : (reader.fill capacity).unread = reader.unread := by
  unfold fill unread
  split
  · next hempty => rw [List.take_append_drop, List.isEmpty_iff.mp hempty, List.nil_append]
  · rfl

theorem read_append :
    (reader.read capacity length).1 ++ (reader.read capacity length).2.unread = reader.unread := by
  unfold read
  split
  · next hempty => simp [unread, List.isEmpty_iff.mp hempty.1]
  · calc (reader.fill capacity).buffer.take length ++
          ((reader.fill capacity).buffer.drop length ++ (reader.fill capacity).queue)
        = (reader.fill capacity).unread := by
          rw [← List.append_assoc, List.take_append_drop, unread]
      _ = reader.unread := unread_fill

theorem fill_buffer_eq_nil_iff (hcapacity : 0 < capacity) :
    (reader.fill capacity).buffer = [] ↔ reader.unread = [] := by
  unfold fill unread
  split
  · next hempty =>
    rw [List.isEmpty_iff.mp hempty, List.nil_append, List.take_eq_nil_iff]
    exact or_iff_right (Nat.ne_of_gt hcapacity)
  · next hfull =>
    have hbuffer : reader.buffer ≠ [] := fun h => hfull (List.isEmpty_iff.mpr h)
    simp [hbuffer]

/-- One element at a time: the first that is unread, with the rest of the buffer kept. -/
theorem read_one {first : α} {rest : List α} (hcapacity : 1 < capacity)
    (h : (reader.fill capacity).buffer = first :: rest) :
    reader.read capacity 1 = ([first], ⟨(reader.fill capacity).queue, rest⟩) := by
  unfold read
  rw [if_neg (fun hdirect => absurd hdirect.2 (Nat.not_le.mpr hcapacity))]
  dsimp only
  rw [h]
  rfl

theorem read_one_nil (hcapacity : 1 < capacity) (h : reader.unread = []) :
    reader.read capacity 1 = ([], reader) := by
  obtain ⟨hbuffer, hqueue⟩ := List.append_eq_nil_iff.mp h
  obtain ⟨queue, buffer⟩ := reader
  obtain rfl : buffer = [] := hbuffer
  obtain rfl : queue = [] := hqueue
  unfold read
  rw [if_neg (fun hdirect => absurd hdirect.2 (Nat.not_le.mpr hcapacity))]
  simp [fill]

end BufferedReader

end FaberHosts.Lib

/-!
## Tables written slot by slot

A table whose slots are overwritten one after the other holds, in each slot, what the last
write to it stored, and otherwise what it held before.
-/

namespace FaberHosts.Lib

variable {ε α β : Type}

/-- What was written last to a slot. -/
def lastWrite : List (Nat × α) → Nat → Option α
  | [], _ => none
  | write :: rest, i => (lastWrite rest i).or (if write.1 = i then some write.2 else none)

/-- Each slot holds what `value` makes of the last write to it. -/
structure Written (value : Nat → α → Except ε β) (writes : List (Nat × α)) (slots after : List β) :
    Prop where
  length : after.length = slots.length
  kept : ∀ i, lastWrite writes i = none → after[i]? = slots[i]?
  stored : ∀ i a, lastWrite writes i = some a → i < slots.length →
    ∃ b, value i a = .ok b ∧ after[i]? = some b

section

variable {value value' : Nat → α → Except ε β} {writes writes' : List (Nat × α)}
  {slots middle after extra : List β}

theorem lastWrite_append (i : Nat) :
    lastWrite (writes ++ writes') i = (lastWrite writes' i).or (lastWrite writes i) := by
  induction writes with
  | nil => simp [lastWrite]
  | cons write rest ih => simp [lastWrite, ih, Option.or_assoc]

theorem lastWrite_mem {i : Nat} {a : α} (h : lastWrite writes i = some a) : (i, a) ∈ writes := by
  induction writes with
  | nil => cases h
  | cons write rest ih =>
    rw [lastWrite] at h
    rcases Option.or_eq_some_iff.mp h with hrest | ⟨-, hhere⟩
    · exact List.mem_cons_of_mem _ (ih hrest)
    · split at hhere
      · next hplace =>
        cases hhere
        rw [← hplace]
        exact List.mem_cons_self
      · cases hhere

theorem Written.nil (value : Nat → α → Except ε β) (slots : List β) :
    Written value [] slots slots := ⟨rfl, fun _ _ => rfl, nofun⟩

theorem Written.single {i : Nat} {a : α} {b : β} (hvalue : value i a = .ok b) :
    Written value [(i, a)] slots (slots.set i b) := by
  refine ⟨List.length_set, fun j hj => ?_, fun j a' hj hlt => ?_⟩
  · have hne : i ≠ j := by simpa [lastWrite] using hj
    exact List.getElem?_set_ne hne
  · obtain ⟨rfl, rfl⟩ : i = j ∧ a = a' := by simpa [lastWrite] using hj
    exact ⟨b, hvalue, List.getElem?_set_self hlt⟩

theorem Written.trans (hfirst : Written value writes slots middle)
    (hsecond : Written value writes' middle after) :
    Written value (writes ++ writes') slots after := by
  refine ⟨hsecond.length.trans hfirst.length, fun i hi => ?_, fun i a hi hlt => ?_⟩
  · rw [lastWrite_append] at hi
    obtain ⟨hi', hi⟩ := Option.or_eq_none_iff.mp hi
    rw [hsecond.kept i hi', hfirst.kept i hi]
  · rw [lastWrite_append] at hi
    rcases Option.or_eq_some_iff.mp hi with hi' | ⟨hi', hi⟩
    · exact hsecond.stored i a hi' (hfirst.length ▸ hlt)
    · rw [hsecond.kept i hi']
      exact hfirst.stored i a hi hlt

theorem Written.append (h : Written value writes slots after)
    (hplaces : ∀ write ∈ writes, write.1 < slots.length)
    (hvalue : ∀ i a b, value i a = .ok b → value' i a = .ok b) :
    Written value' writes (slots ++ extra) (after ++ extra) := by
  refine ⟨by simp [h.length], fun i hi => ?_, fun i a hi hlt => ?_⟩
  · by_cases hlt : i < slots.length
    · rw [List.getElem?_append_left (h.length ▸ hlt), List.getElem?_append_left hlt, h.kept i hi]
    · rw [List.getElem?_append_right (by rw [h.length]; omega),
        List.getElem?_append_right (by omega), h.length]
  · have hlt := hplaces (i, a) (lastWrite_mem hi)
    obtain ⟨b, hb, hslot⟩ := h.stored i a hi hlt
    exact ⟨b, hvalue i a b hb, by rw [List.getElem?_append_left (h.length ▸ hlt), hslot]⟩

end

end FaberHosts.Lib
