import Mathlib.Data.List.Induction
import WordMachine.Machine.Memory

/-!
# What a memory holds

A memory after any calls, of which some may be refused (`Memory.ofCalls`). It holds at an address
what was written there last since it was cleared, or zero (`read_ofCalls_iff`). The words that are
not zero are listed once each, by ascending addresses (`mem_nonzero_iff`, `nonzero_ascending`), so a
memory is known from the list and its size (`ofEntries_nonzero`). For the addresses in the list to
be right, no memory has more words than there are addresses.
-/

namespace WordMachine

namespace Memory

/-! ## Calls -/

/-- What can be asked of a memory. -/
inductive Call where
  | read (address : Word)
  | write (address value : Word)
  | clear
  deriving DecidableEq, Repr

/-- The address that a call accesses. -/
def Call.address? : Call → Option Word
  | read address | write address _ => some address
  | clear => none

/-- The answer to a call and the memory behind it. A read is answered by a word. -/
def call (m : Memory) : Call → Except MemoryFault (Option Word) × Memory
  | .read address => ((m.read address).map some, m)
  | .write address value =>
    ((m.write address value).1.map fun _ => none, (m.write address value).2)
  | .clear => (.ok none, m.clear)

/-- A new memory after calls in order. -/
def ofCalls (n : Nat) (calls : List Call) : Memory :=
  calls.foldl (fun m c => (m.call c).2) (zeros n)

/-- Whether a word is the one that calls wrote last to an address, and have not cleared since. -/
def LastWrite (calls : List Call) (address value : Word) : Prop :=
  ∃ before after, calls = before ++ .write address value :: after ∧ .clear ∉ after ∧
    ∀ w, .write address w ∉ after

theorem ofCalls_append_singleton (n : Nat) (calls : List Call) (c : Call) :
    ofCalls n (calls ++ [c]) = ((ofCalls n calls).call c).2 := by
  rw [ofCalls, List.foldl_append]
  rfl

/-! ## Single calls -/

section Call

variable {m m' : Memory} {address value w : Word} {c : Call}

theorem read_eq_ok_iff : m.read address = .ok w ↔ m.words[address.toNat]? = some w := by
  unfold read
  cases m.words[address.toNat]? with
  | some _ => simp
  | none => simp

theorem exists_read_iff : (∃ w, m.read address = .ok w) ↔ address.toNat < m.size := by
  simp only [read_eq_ok_iff]
  constructor
  · rintro ⟨w, hw⟩
    exact (Array.getElem?_eq_some_iff.1 hw).1
  · exact fun hlt => ⟨_, Array.getElem?_eq_getElem hlt⟩

/-- Memories are the same if they have the same size and every address reads the same. -/
theorem ext_read (hsize : m.size = m'.size)
    (h : ∀ a w, m.read a = .ok w ↔ m'.read a = .ok w) : m = m' := by
  obtain ⟨words, hwords⟩ := m
  obtain ⟨words', hwords'⟩ := m'
  obtain rfl : words = words' := by
    refine Array.ext hsize fun i hi hi' => ?_
    have haddress : (UInt16.ofNat i).toNat = i :=
      UInt16.toNat_ofNat_of_lt' (Nat.lt_of_lt_of_le hi hwords)
    have hread := (h (UInt16.ofNat i) words[i]).1
    simp only [read_eq_ok_iff, haddress, Array.getElem?_eq_getElem hi,
      Array.getElem?_eq_getElem hi', Option.some.injEq, forall_const] at hread
    exact hread.symm
  rfl

theorem size_call (m : Memory) (c : Call) : (m.call c).2.size = m.size := by
  cases c with
  | read => rfl
  | write => exact m.size_write ..
  | clear => exact m.size_clear

/-- An access is refused beyond the memory, and only there. -/
theorem exists_call_iff (haddress : c.address? = some address) :
    (∃ answer, (m.call c).1 = .ok answer) ↔ address.toNat < m.size := by
  cases c with
  | clear => cases haddress
  | read =>
    cases haddress
    rw [← exists_read_iff]
    simp only [call]
    cases m.read address with
    | ok w => simp [Except.map]
    | error fault => simp [Except.map]
  | write _ value =>
    cases haddress
    simp only [call, write, size]
    split
    · next hlt => simpa [Except.map] using hlt
    · next hle => simpa [Except.map] using Nat.not_lt.1 hle

theorem call_eq_error {fault : MemoryFault} (h : (m.call c).1 = .error fault) :
    (m.call c).2 = m := by
  cases c with
  | read => rfl
  | write address value =>
    rcases hwrite : m.write address value with ⟨_ | ⟨⟩, m'⟩
    · obtain ⟨-, -, rfl⟩ := write_eq_error_iff.1 hwrite
      simp only [call, hwrite]
    · simp only [call, hwrite] at h
      cases h
  | clear => cases h

theorem read_call_iff : (m.call (.read address)).1 = .ok (some w) ↔ m.read address = .ok w := by
  simp only [call]
  cases m.read address with
  | ok _ => simp [Except.map]
  | error _ => simp [Except.map]

/-- What is written is read again, at the address where it was written. -/
theorem read_write (hlt : address.toNat < m.size) (a : Word) :
    (m.write address value).2.read a = if address = a then .ok value else m.read a := by
  have hlt : address.toNat < m.words.size := hlt
  rw [write, dif_pos hlt]
  simp only [read, Array.getElem?_set, UInt16.toNat_inj]
  by_cases ha : address = a
  · simp only [if_pos ha]
  · simp only [if_neg ha, size, Array.size_set]

/-- A call that neither clears the memory nor writes to an address leaves the word there. -/
theorem read_call_of_ne (hclear : c ≠ .clear) (hwrite : ∀ w, c ≠ .write address w) :
    (m.call c).2.read address = m.read address := by
  cases c with
  | read => rfl
  | clear => exact absurd rfl hclear
  | write a v =>
    have hne : a ≠ address := by
      rintro rfl
      exact hwrite v rfl
    by_cases hlt : a.toNat < m.size
    · exact (read_write hlt address).trans (if_neg hne)
    · have hrefused : m.write a v = (.error ⟨.write, m.size⟩, m) :=
        write_eq_error_iff.2 ⟨Nat.not_lt.1 hlt, rfl, rfl⟩
      simp only [call, hrefused]

theorem read_zeros {n : Nat} :
    (zeros n).read address = .ok w ↔ address.toNat < min n Word.count ∧ w = 0 := by
  rw [read_eq_ok_iff, zeros, Array.getElem?_replicate]
  split
  · next hlt => simp [hlt, eq_comm]
  · next hle => simp [hle]

end Call

/-! ## The last write -/

section LastWrite

variable {calls : List Call} {c : Call} {address value : Word}

theorem not_lastWrite_nil : ¬LastWrite [] address value := by
  rintro ⟨before, after, h, -⟩
  simp at h

/-- One more call is the last write, or it leaves the last write what it was. -/
theorem lastWrite_append_singleton :
    LastWrite (calls ++ [c]) address value ↔
      c = .write address value ∨
        LastWrite calls address value ∧ c ≠ .clear ∧ ∀ w, c ≠ .write address w := by
  constructor
  · rintro ⟨before, after, h, hclear, hwrite⟩
    rcases List.eq_nil_or_concat after with rfl | ⟨after, last, rfl⟩
    · exact .inl (by simpa using List.append_inj_right' h rfl)
    · rw [List.concat_eq_append, ← List.cons_append, ← List.append_assoc] at h
      obtain rfl : c = last := by simpa using List.append_inj_right' h rfl
      simp only [List.concat_eq_append, List.mem_append, List.mem_singleton, not_or]
        at hclear hwrite
      exact .inr ⟨⟨before, after, List.append_inj_left' h rfl, hclear.1, fun w => (hwrite w).1⟩,
        Ne.symm hclear.2, fun w => Ne.symm (hwrite w).2⟩
  · rintro (rfl | ⟨⟨before, after, rfl, hclear, hwrite⟩, hclear', hwrite'⟩)
    · exact ⟨calls, [], rfl, List.not_mem_nil, fun _ => List.not_mem_nil⟩
    · refine ⟨before, after ++ [c], by simp, ?_, fun w => ?_⟩
      · simp [hclear, hclear'.symm]
      · simp [hwrite w, (hwrite' w).symm]

end LastWrite

/-! ## Memories after calls -/

theorem size_ofCalls (n : Nat) (calls : List Call) :
    (ofCalls n calls).size = min n Word.count := by
  induction calls using List.reverseRecOn with
  | nil => exact size_zeros n
  | append_singleton calls c ih => rw [ofCalls_append_singleton, size_call, ih]

/-- An address holds what was written there last, or zero. -/
theorem read_ofCalls_iff {n : Nat} {calls : List Call} {address value : Word} :
    (ofCalls n calls).read address = .ok value ↔
      address.toNat < min n Word.count ∧
        (LastWrite calls address value ∨ (∀ w, ¬LastWrite calls address w) ∧ value = 0) := by
  by_cases hlt : address.toNat < min n Word.count
  case neg =>
    refine ⟨fun h => ?_, fun h => absurd h.1 hlt⟩
    exact absurd (size_ofCalls n calls ▸ exists_read_iff.1 ⟨_, h⟩) hlt
  rw [and_iff_right hlt]
  induction calls using List.reverseRecOn generalizing value with
  | nil =>
    have hnone : ∀ w, ¬LastWrite [] address w := fun _ => not_lastWrite_nil
    simp [ofCalls, read_zeros, hlt, hnone]
  | append_singleton calls c ih =>
    rw [ofCalls_append_singleton]
    simp only [lastWrite_append_singleton]
    have hsize : address.toNat < (ofCalls n calls).size := (size_ofCalls n calls).symm ▸ hlt
    by_cases hclear : c = .clear
    · subst hclear
      simp [call, clear, read_zeros, size_ofCalls, hlt]
    · by_cases hwrite : ∃ w, c = .write address w
      · obtain ⟨w, rfl⟩ := hwrite
        simp only [call, read_write hsize, if_true]
        simp [eq_comm]
      · have hne : ∀ w, c ≠ .write address w := fun w h => hwrite ⟨w, h⟩
        simpa [read_call_of_ne hclear hne, hclear, hne] using ih

/-! ## The words that are not zero -/

theorem mem_nonzero_iff {m : Memory} {address value : Word} :
    (address, value) ∈ m.nonzero ↔ value ≠ 0 ∧ m.read address = .ok value := by
  rw [read_eq_ok_iff, nonzero, List.mem_filterMap]
  constructor
  · rintro ⟨⟨w, i⟩, hmem, h⟩
    have hi := List.mk_mem_zipIdx_iff_getElem?.1 hmem
    rw [Array.getElem?_toList] at hi
    have hlt : i < Word.count :=
      Nat.lt_of_lt_of_le (Array.getElem?_eq_some_iff.1 hi).1 m.size_le
    simp only [Option.ite_none_left_eq_some, Option.some.injEq, Prod.mk.injEq] at h
    obtain ⟨hne, rfl, rfl⟩ := h
    rw [UInt16.toNat_ofNat_of_lt' hlt]
    exact ⟨hne, hi⟩
  · rintro ⟨hne, h⟩
    refine ⟨(value, address.toNat), ?_, ?_⟩
    · rw [List.mk_mem_zipIdx_iff_getElem?, Array.getElem?_toList]
      exact h
    · simp [hne]

theorem nonzero_ascending (m : Memory) : m.nonzero.Pairwise fun x y => x.1 < y.1 := by
  have hlt : ∀ x ∈ m.words.toList.zipIdx, x.2 < Word.count := by
    intro x hx
    have hi := (List.getElem?_eq_some_iff.1 (List.mk_mem_zipIdx_iff_getElem?.1 hx)).1
    exact Nat.lt_of_lt_of_le hi m.size_le
  have hpositions : m.words.toList.zipIdx.Pairwise fun x y => x.2 < y.2 := by
    rw [← List.pairwise_map (f := Prod.snd), List.zipIdx_map_snd]
    exact List.pairwise_lt_range'
  refine (List.Pairwise.and_mem.1 hpositions).filterMap _ ?_
  rintro ⟨v, i⟩ ⟨w, j⟩ ⟨hi, hj, hij⟩ x hx y hy
  simp only [Option.ite_none_left_eq_some, Option.some.injEq] at hx hy
  obtain ⟨-, rfl⟩ := hx
  obtain ⟨-, rfl⟩ := hy
  rw [UInt16.lt_iff_toNat_lt, UInt16.toNat_ofNat_of_lt' (hlt _ hi),
    UInt16.toNat_ofNat_of_lt' (hlt _ hj)]
  exact hij

/-- The memory of a size that holds words at addresses, and zeros elsewhere. -/
def ofEntries (n : Nat) (entries : List (Word × Word)) : Memory :=
  ofCalls n (entries.map fun (address, value) => .write address value)

/-- Where each address is written once, every write is the last one. -/
theorem lastWrite_map_iff {entries : List (Word × Word)}
    (h : entries.Pairwise fun x y => x.1 ≠ y.1) {address value : Word} :
    LastWrite (entries.map fun (address, value) => .write address value) address value ↔
      (address, value) ∈ entries := by
  induction entries using List.reverseRecOn with
  | nil => simp [not_lastWrite_nil]
  | append_singleton entries e ih =>
    obtain ⟨a, v⟩ := e
    obtain ⟨hentries, -, hlast⟩ := List.pairwise_append.1 h
    rw [List.map_append, List.map_singleton, List.mem_append, List.mem_singleton]
    by_cases ha : a = address
    · subst ha
      have hnot : (a, value) ∉ entries := fun hmem => hlast _ hmem _ (List.mem_singleton_self _) rfl
      simp [lastWrite_append_singleton, hnot, eq_comm]
    · simp [lastWrite_append_singleton, ih hentries, ha, Ne.symm ha]

/-- A memory is known from its size and its words that are not zero. -/
theorem ofEntries_nonzero (m : Memory) : ofEntries m.size m.nonzero = m := by
  have hsize : min m.size Word.count = m.size := Nat.min_eq_left m.size_le
  have hdistinct : m.nonzero.Pairwise fun x y => x.1 ≠ y.1 :=
    m.nonzero_ascending.imp fun h => UInt16.ne_of_lt h
  refine ext_read ((size_ofCalls ..).trans hsize) fun address value => ?_
  rw [ofEntries, read_ofCalls_iff, hsize, ← exists_read_iff]
  simp only [lastWrite_map_iff hdistinct, mem_nonzero_iff]
  constructor
  · rintro ⟨⟨w, hw⟩, ⟨-, h⟩ | ⟨hnone, rfl⟩⟩
    · exact h
    · have hzero : w = 0 := Classical.not_not.1 fun hne => hnone w ⟨hne, hw⟩
      exact hzero ▸ hw
  · intro h
    refine ⟨⟨value, h⟩, ?_⟩
    by_cases hvalue : value = 0
    · refine .inr ⟨fun w hw => hw.1 ?_, hvalue⟩
      rw [← hvalue]
      exact Except.ok.inj (hw.2.symm.trans h)
    · exact .inl ⟨hvalue, h⟩

end Memory

/-- **A memory is a faithful store.** After any calls, a memory that was new with `n` words has as
many as addresses reach. It answers an access if the address is below that number, and only then;
one that it refuses changes nothing. A read is answered by the word that was written last to the
address since the memory was cleared, which no refused write can be, or by zero if there is none.
The words that are not zero are listed with their addresses, in strictly ascending order, and the
memory can be made from the list and its size. -/
theorem memory_faithful (n : Nat) (calls : List Memory.Call) :
    (Memory.ofCalls n calls).size = min n 65536 ∧
    (∀ c address, c.address? = some address →
      ((∃ answer, ((Memory.ofCalls n calls).call c).1 = .ok answer) ↔
        address.toNat < min n 65536)) ∧
    (∀ c fault, ((Memory.ofCalls n calls).call c).1 = .error fault →
      ((Memory.ofCalls n calls).call c).2 = Memory.ofCalls n calls) ∧
    (∀ address value,
      ((Memory.ofCalls n calls).call (.read address)).1 = .ok (some value) ↔
        address.toNat < min n 65536 ∧
          (Memory.LastWrite calls address value ∨
            (∀ w, ¬Memory.LastWrite calls address w) ∧ value = 0)) ∧
    ((Memory.ofCalls n calls).nonzero.Pairwise fun x y => x.1 < y.1) ∧
    (∀ address value, (address, value) ∈ (Memory.ofCalls n calls).nonzero ↔
      value ≠ 0 ∧ ((Memory.ofCalls n calls).call (.read address)).1 = .ok (some value)) ∧
    Memory.ofEntries (Memory.ofCalls n calls).size (Memory.ofCalls n calls).nonzero =
      Memory.ofCalls n calls := by
  have hsize : (Memory.ofCalls n calls).size = min n 65536 := Memory.size_ofCalls n calls
  refine ⟨hsize, ?_, fun c fault => Memory.call_eq_error, ?_, Memory.nonzero_ascending _, ?_,
    Memory.ofEntries_nonzero _⟩
  · intro c address haddress
    rw [← hsize]
    exact Memory.exists_call_iff haddress
  · intro address value
    rw [Memory.read_call_iff]
    exact Memory.read_ofCalls_iff
  · intro address value
    rw [Memory.read_call_iff]
    exact Memory.mem_nonzero_iff

/-- Writes before and behind a clearing of two words of memory, one of them refused. -/
theorem memory_faithful_cleared :
    ((Memory.ofCalls 2 [.write 0 7, .write 5 9, .clear, .write 1 8, .write 1 6]).call (.read 1)).1 =
        .ok (some 6) ∧
      ((Memory.ofCalls 2 [.write 0 7, .write 5 9, .clear, .write 1 8, .write 1 6]).call
        (.read 0)).1 = .ok (some 0) ∧
      ¬∃ answer, ((Memory.ofCalls 2 [.write 0 7]).call (.write 5 9)).1 = .ok answer := by
  have hread := (memory_faithful 2
    [.write 0 7, .write 5 9, .clear, .write 1 8, .write 1 6]).2.2.2.1
  refine ⟨(hread 1 6).2 ⟨by decide, .inl ?_⟩, (hread 0 0).2 ⟨by decide, .inr ⟨?_, rfl⟩⟩, ?_⟩
  · exact ⟨[.write 0 7, .write 5 9, .clear, .write 1 8], [], rfl, by decide, by simp⟩
  · intro w
    have hsplit : ([.write 0 7, .write 5 9, .clear, .write 1 8, .write 1 6] : List Memory.Call) =
        [] ++ [.write 0 7] ++ [.write 5 9] ++ [.clear] ++ [.write 1 8] ++ [.write 1 6] := rfl
    rw [hsplit]
    simp only [Memory.lastWrite_append_singleton]
    simp
  · rw [(memory_faithful 2 [.write 0 7]).2.1 (.write 5 9) 5 rfl]
    decide

end WordMachine
