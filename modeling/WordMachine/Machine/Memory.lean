import WordMachine.Word

/-!
# Memory

A memory of at most 65,536 words, addressed by words. A memory of fewer words refuses the
addresses beyond them.
-/

namespace WordMachine

inductive Access where
  | read | write
  deriving DecidableEq, Repr

/-- An access outside a memory of some number of words. -/
structure MemoryFault where
  access : Access
  words : Nat
  deriving DecidableEq, Repr

def MemoryFault.message (f : MemoryFault) : String :=
  match f.access with
  | .read => s!"read outside {f.words} words of memory"
  | .write => s!"write outside {f.words} words of memory"

/-- A memory, with an address for each of its words. -/
structure Memory where
  words : Array Word
  size_le : words.size ≤ Word.count

namespace Memory

def size (m : Memory) : Nat :=
  m.words.size

/-- A memory of zeros, of the given size if addresses reach that far. -/
def zeros (n : Nat) : Memory where
  words := Array.replicate (min n Word.count) 0
  size_le := by rw [Array.size_replicate]; exact Nat.min_le_right ..

def read (m : Memory) (address : Word) : Except MemoryFault Word :=
  match m.words[address.toNat]? with
  | some w => .ok w
  | none => .error ⟨.read, m.size⟩

/-- Writes the word at an address. A refused write returns the memory as it was. -/
@[inline] def write (m : Memory) (address value : Word) : Except MemoryFault Unit × Memory :=
  if h : address.toNat < m.words.size then
    (.ok (), ⟨m.words.set address.toNat value h, by rw [Array.size_set]; exact m.size_le⟩)
  else (.error ⟨.write, m.size⟩, m)

def clear (m : Memory) : Memory :=
  zeros m.size

/-- The words that are not zero with their addresses, in ascending order. -/
def nonzero (m : Memory) : List (Word × Word) :=
  m.words.toList.zipIdx.filterMap fun (w, address) =>
    if w = 0 then none else some (UInt16.ofNat address, w)

def describe (m : Memory) : String :=
  let words := m.size
  let nonzero := m.nonzero.length
  s!"LinearMemory \x7b words: {words}, nonzero: {nonzero} \x7d"

theorem size_zeros (n : Nat) : (zeros n).size = min n Word.count :=
  Array.size_replicate

theorem size_write (m : Memory) (address value : Word) :
    (m.write address value).2.size = m.size := by
  unfold write
  split
  · simp [size]
  · rfl

theorem size_clear (m : Memory) : m.clear.size = m.size := by
  rw [clear, size_zeros]
  exact Nat.min_eq_left m.size_le

/-- Reading is refused beyond the memory. -/
theorem read_eq_error_iff {m : Memory} {address : Word} {fault : MemoryFault} :
    m.read address = .error fault ↔ m.size ≤ address.toNat ∧ fault = ⟨.read, m.size⟩ := by
  unfold read
  split
  · next w hw =>
    have hlt : address.toNat < m.size := (Array.getElem?_eq_some_iff.1 hw).1
    exact ⟨nofun, fun h => absurd hlt (Nat.not_lt.2 h.1)⟩
  · next hnone =>
    have hle : m.size ≤ address.toNat := Array.getElem?_eq_none_iff.1 hnone
    exact ⟨fun h => ⟨hle, (Except.error.inj h).symm⟩, fun h => congrArg Except.error h.2.symm⟩

/-- Writing is refused beyond the memory, which stays as it was. -/
theorem write_eq_error_iff {m m' : Memory} {address value : Word} {fault : MemoryFault} :
    m.write address value = (.error fault, m') ↔
      m.size ≤ address.toNat ∧ fault = ⟨.write, m.size⟩ ∧ m' = m := by
  unfold write
  split
  · next hlt => exact ⟨nofun, fun h => absurd hlt (Nat.not_lt.2 h.1)⟩
  · next hle =>
    constructor
    · intro h
      cases h
      exact ⟨Nat.not_lt.1 hle, rfl, rfl⟩
    · rintro ⟨-, rfl, rfl⟩
      rfl

end Memory

end WordMachine
