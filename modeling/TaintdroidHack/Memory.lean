import Mathlib.Data.BitVec

/-! A 32-bit byte-addressed memory, parts of which may be unmapped, with
little-endian words, and the layout of C structures. -/

namespace Memory

abbrev Addr := BitVec 32

abbrev Heap := Addr → Option (BitVec 8)

def InRange (a : Addr) (n : Nat) (x : Addr) : Prop := (x - a).toNat < n

instance (a : Addr) (n : Nat) : DecidablePred (InRange a n) := fun _ =>
  inferInstanceAs (Decidable (_ < _))

def byteOf (v : BitVec 32) (i : Nat) : BitVec 8 := v.extractLsb' (8 * i) 8

def load32 (h : Heap) (a : Addr) : Option (BitVec 32) :=
  match h a, h (a + 1), h (a + 2), h (a + 3) with
  | some b0, some b1, some b2, some b3 => some (b3 ++ b2 ++ b1 ++ b0)
  | _, _, _, _ => none

def put32 (h : Heap) (a : Addr) (v : BitVec 32) : Heap := fun x =>
  if InRange a 4 x then some (byteOf v (x - a).toNat) else h x

/-- Storing faults, like loading, where one of the four bytes is unmapped. -/
def store32 (h : Heap) (a : Addr) (v : BitVec 32) : Option Heap :=
  if (load32 h a).isSome then some (put32 h a v) else none

def Apart (a b : Addr) : Prop := ∀ x, InRange a 4 x → ¬ InRange b 4 x

theorem Apart.symm {a b : Addr} (h : Apart a b) : Apart b a := fun x hb ha => h x ha hb

theorem put32_of_inRange (h : Heap) {a x : Addr} (v : BitVec 32) (hx : InRange a 4 x) :
    put32 h a v x = some (byteOf v (x - a).toNat) := if_pos hx

theorem put32_of_not_inRange (h : Heap) {a x : Addr} (v : BitVec 32) (hx : ¬ InRange a 4 x) :
    put32 h a v x = h x := if_neg hx

theorem toNat_add_sub_self (a : Addr) {i : Nat} (hi : i < 4) :
    (a + BitVec.ofNat 32 i - a).toNat = i := by
  bv_omega

theorem inRange_add (a : Addr) {i : Nat} (hi : i < 4) : InRange a 4 (a + BitVec.ofNat 32 i) := by
  rw [InRange, toNat_add_sub_self a hi]
  exact hi

theorem inRange_self (a : Addr) : InRange a 4 a := by
  rw [InRange, BitVec.sub_self]
  decide

theorem byteOf_append (v : BitVec 32) :
    byteOf v 3 ++ byteOf v 2 ++ byteOf v 1 ++ byteOf v 0 = v := by
  ext i hi
  simp only [byteOf, BitVec.getElem_append, BitVec.getElem_extractLsb']
  rw [← BitVec.getLsbD_eq_getElem hi]
  split_ifs <;> congr 1 <;> omega

theorem load32_put32_self (h : Heap) (a : Addr) (v : BitVec 32) :
    load32 (put32 h a v) a = some v := by
  have h0 : put32 h a v a = some (byteOf v 0) := by
    rw [put32_of_inRange h v (inRange_self a), BitVec.sub_self]
    rfl
  have hi : ∀ i < 4, put32 h a v (a + BitVec.ofNat 32 i) = some (byteOf v i) := fun i hi => by
    rw [put32_of_inRange h v (inRange_add a hi), toNat_add_sub_self a hi]
  have h1 : put32 h a v (a + 1) = some (byteOf v 1) := hi 1 (by omega)
  have h2 : put32 h a v (a + 2) = some (byteOf v 2) := hi 2 (by omega)
  have h3 : put32 h a v (a + 3) = some (byteOf v 3) := hi 3 (by omega)
  simp only [load32, h0, h1, h2, h3, byteOf_append]

theorem load32_congr {h h' : Heap} {a : Addr} (he : ∀ x, InRange a 4 x → h x = h' x) :
    load32 h a = load32 h' a := by
  have h1 : h (a + 1) = h' (a + 1) := he _ (inRange_add a (i := 1) (by omega))
  have h2 : h (a + 2) = h' (a + 2) := he _ (inRange_add a (i := 2) (by omega))
  have h3 : h (a + 3) = h' (a + 3) := he _ (inRange_add a (i := 3) (by omega))
  rw [load32, load32, he a (inRange_self a), h1, h2, h3]

theorem load32_put32_of_apart (h : Heap) {a b : Addr} (v : BitVec 32) (hab : Apart a b) :
    load32 (put32 h a v) b = load32 h b :=
  load32_congr fun _ hx => put32_of_not_inRange h v fun ha => hab _ ha hx

theorem put32_put32_self (h : Heap) (a : Addr) (v : BitVec 32) :
    put32 (put32 h a v) a v = put32 h a v := by
  funext x
  by_cases hx : InRange a 4 x
  · rw [put32_of_inRange _ v hx, put32_of_inRange _ v hx]
  · rw [put32_of_not_inRange _ v hx]

theorem put32_comm (h : Heap) {a b : Addr} (v w : BitVec 32) (hab : Apart a b) :
    put32 (put32 h a v) b w = put32 (put32 h b w) a v := by
  funext x
  by_cases ha : InRange a 4 x
  · rw [put32_of_not_inRange _ w (hab x ha), put32_of_inRange _ v ha, put32_of_inRange _ v ha]
  · rw [put32_of_not_inRange _ v ha]
    by_cases hb : InRange b 4 x
    · rw [put32_of_inRange _ w hb, put32_of_inRange _ w hb]
    · rw [put32_of_not_inRange _ w hb, put32_of_not_inRange _ w hb, put32_of_not_inRange _ v ha]

def Separate (p : Addr) (n : Nat) (q : Addr) (m : Nat) : Prop :=
  p.toNat + n ≤ 2 ^ 32 ∧ q.toNat + m ≤ 2 ^ 32 ∧
    (p.toNat + n ≤ q.toNat ∨ q.toNat + m ≤ p.toNat)

instance (p : Addr) (n : Nat) (q : Addr) (m : Nat) : Decidable (Separate p n q m) :=
  inferInstanceAs (Decidable (_ ∧ _))

theorem Separate.apart {p q : Addr} {n m i j : Nat} (h : Separate p n q m) (hi : i + 4 ≤ n)
    (hj : j + 4 ≤ m) : Apart (p + BitVec.ofNat 32 i) (q + BitVec.ofNat 32 j) := by
  intro x hx hy
  obtain ⟨hp, hq, ho⟩ := h
  simp only [InRange] at hx hy
  bv_omega

structure Member where
  name : String
  size : Nat
  align : Nat

def alignUp (n align : Nat) : Nat := (n + align - 1) / align * align

def place (offset : Nat) : List Member → List (String × Nat)
  | [] => []
  | m :: ms => (m.name, alignUp offset m.align) :: place (alignUp offset m.align + m.size) ms

def offsetOf (ms : List Member) (name : String) : Option Nat := (place 0 ms).lookup name

end Memory
