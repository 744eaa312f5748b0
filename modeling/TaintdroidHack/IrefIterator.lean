import TaintdroidHack.Untaint

/-! `iref_iterator`: a walk over the slots of a table that passes by unused
slots and tombstones, against the lookup, which knows no tombstones. -/

namespace TaintdroidHack

open Memory

def kClearedJniWeakGlobal : Addr := 0xdead1234#32

/-- The address of an array and, beside it, the slots that lie there. -/
structure IrefIterator where
  table_ : Addr
  slots : List IndirectRefSlot
  i_ : Nat
  capacity_ : Nat
  deriving DecidableEq, Repr

def skipped (slots : List IndirectRefSlot) (i_ : Nat) : Bool :=
  (slots[i_]?).any fun slot => slot.obj = 0 ∨ slot.obj = kClearedJniWeakGlobal

-- The loop of `skipNullsAndTombstones`, with the number of slots up to the end.
def skipFrom (slots : List IndirectRefSlot) : Nat → Nat → Nat
  | 0, i_ => i_
  | left + 1, i_ => if skipped slots i_ then skipFrom slots left (i_ + 1) else i_

def IrefIterator.skipNullsAndTombstones (it : IrefIterator) : IrefIterator :=
  { it with i_ := skipFrom it.slots (it.capacity_ - it.i_) it.i_ }

def IrefIterator.new (table : Addr) (slots : List IndirectRefSlot) (i capacity : Nat) :
    IrefIterator :=
  skipNullsAndTombstones ⟨table, slots, i, capacity⟩

def IrefIterator.increment (it : IrefIterator) : IrefIterator :=
  skipNullsAndTombstones { it with i_ := (it.i_ + 1) % 2 ^ 32 }

def IrefIterator.equals (it rhs : IrefIterator) : Bool :=
  it.i_ = rhs.i_ ∧ it.table_ = rhs.table_

/-- The indices passed until the iterator no longer differs from `last`, if
that happens within so many increments. -/
def IrefIterator.walk (last : IrefIterator) : Nat → IrefIterator → Option (List Nat)
  | 0, it => if it.equals last then some [] else none
  | n + 1, it =>
    if it.equals last then some [] else (walk last n it.increment).map (it.i_ :: ·)

variable {table : Addr} {slots : List IndirectRefSlot} {i capacity n : Nat}

theorem skipped_eq_false_iff (hi : i < slots.length) : skipped slots i = false ↔
    ∃ slot, slots[i]? = some slot ∧ slot.obj ≠ 0 ∧ slot.obj ≠ kClearedJniWeakGlobal := by
  simp [skipped, List.getElem?_eq_getElem hi]

def shownFrom (slots : List IndirectRefSlot) (left i : Nat) : List Nat :=
  (List.range' i left).filter fun j => !skipped slots j

theorem shownFrom_succ (slots : List IndirectRefSlot) (left i : Nat) :
    shownFrom slots (left + 1) i =
      if skipped slots i then shownFrom slots left (i + 1)
      else i :: shownFrom slots left (i + 1) := by
  rw [shownFrom, List.range'_succ, List.filter_cons]
  cases skipped slots i <;> rfl

theorem mem_shownFrom (hcap : capacity ≤ slots.length) (hi : i ≤ capacity) {j : Nat} :
    j ∈ shownFrom slots (capacity - i) i ↔ i ≤ j ∧ j < capacity ∧
      ∃ slot, slots[j]? = some slot ∧ slot.obj ≠ 0 ∧ slot.obj ≠ kClearedJniWeakGlobal := by
  have hend : i + (capacity - i) = capacity := by omega
  rw [shownFrom, List.mem_filter, List.mem_range'_1, hend, Bool.not_eq_true', and_assoc]
  refine and_congr_right fun _ => and_congr_right fun hj => ?_
  exact skipped_eq_false_iff (Nat.lt_of_lt_of_le hj hcap)

theorem shownFrom_pairwise (slots : List IndirectRefSlot) (left i : Nat) :
    (shownFrom slots left i).Pairwise (· < ·) :=
  (List.pairwise_lt_range' 1).filter _

/-- Where the loop stops: at the next slot to be shown, or at the end. -/
theorem skipFrom_cases (slots : List IndirectRefSlot) (left i : Nat) :
    (skipFrom slots left i = i + left ∧ shownFrom slots left i = []) ∨
      ∃ k < left, skipFrom slots left i = i + k ∧
        shownFrom slots left i = (i + k) :: shownFrom slots (left - (k + 1)) (i + k + 1) := by
  induction left generalizing i with
  | zero => exact .inl ⟨rfl, rfl⟩
  | succ left ih =>
    rw [skipFrom, shownFrom_succ]
    by_cases hs : skipped slots i = true
    · rw [if_pos hs, if_pos hs]
      rcases ih (i + 1) with ⟨hskip, hshown⟩ | ⟨k, hk, hskip, hshown⟩
      · exact .inl ⟨by omega, hshown⟩
      · refine .inr ⟨k + 1, by omega, by omega, ?_⟩
        rw [hshown]
        have hindex : i + 1 + k = i + (k + 1) := by omega
        have hleft : left + 1 - (k + 1 + 1) = left - (k + 1) := by omega
        rw [hindex, hleft]
    · rw [if_neg hs, if_neg hs]
      exact .inr ⟨0, by omega, rfl, rfl⟩

theorem new_last (table : Addr) (slots : List IndirectRefSlot) (capacity : Nat) :
    IrefIterator.new table slots capacity capacity = ⟨table, slots, capacity, capacity⟩ := by
  rw [IrefIterator.new, IrefIterator.skipNullsAndTombstones, Nat.sub_self]
  rfl

theorem equals_last {j : Nat} :
    (IrefIterator.mk table slots j capacity).equals ⟨table, slots, capacity, capacity⟩ = true ↔
      j = capacity := by
  simp [IrefIterator.equals]

/-- Up to the end the index never wraps around. -/
theorem walk_new (hsize : capacity < 2 ^ 32) (hi : i ≤ capacity) (hn : capacity - i ≤ n) :
    IrefIterator.walk (.new table slots capacity capacity) n (.new table slots i capacity) =
      some (shownFrom slots (capacity - i) i) := by
  rw [new_last]
  induction n generalizing i with
  | zero =>
    have hend : i = capacity := by omega
    rw [hend, new_last, Nat.sub_self]
    exact if_pos (equals_last.mpr rfl)
  | succ n ih =>
    rw [IrefIterator.new, IrefIterator.skipNullsAndTombstones]
    dsimp only
    rcases skipFrom_cases slots (capacity - i) i with ⟨hskip, hshown⟩ | ⟨k, hk, hskip, hshown⟩
    · have hend : skipFrom slots (capacity - i) i = capacity := by omega
      rw [hend, hshown, IrefIterator.walk, if_pos (equals_last.mpr rfl)]
    · have hne : ¬ (IrefIterator.mk table slots (i + k) capacity).equals
          ⟨table, slots, capacity, capacity⟩ = true := by
        rw [equals_last]
        omega
      have hwrap : (i + k + 1) % 2 ^ 32 = i + k + 1 := Nat.mod_eq_of_lt (by omega)
      have hleft : capacity - i - (k + 1) = capacity - (i + k + 1) := by omega
      have hrest := ih (i := i + k + 1) (by omega) (by omega)
      rw [hskip, hshown, hleft, IrefIterator.walk, if_neg hne, IrefIterator.increment, hwrap]
      exact congrArg (Option.map _) hrest

/-- However many increments are allowed beyond those that are needed, the walk
passes the slots that hold an object and no other. -/
theorem walk_passes_objects (table : Addr) (hcap : capacity ≤ slots.length)
    (hsize : slots.length < 2 ^ 32) (hi : i ≤ capacity) :
    ∃ passed, (∀ n, capacity - i ≤ n →
        IrefIterator.walk (.new table slots capacity capacity) n (.new table slots i capacity) =
          some passed) ∧
      passed.Pairwise (· < ·) ∧
      ∀ j, j ∈ passed ↔ i ≤ j ∧ j < capacity ∧
        ∃ slot, slots[j]? = some slot ∧ slot.obj ≠ 0 ∧ slot.obj ≠ kClearedJniWeakGlobal := by
  refine ⟨shownFrom slots (capacity - i) i, fun n hn => ?_, shownFrom_pairwise _ _ _, fun j => ?_⟩
  · exact walk_new (Nat.lt_of_le_of_lt hcap hsize) hi hn
  · exact mem_shownFrom hcap hi

theorem walk_passes_objects_gaps : ∃ passed, (∀ n, 3 - 0 ≤ n →
      IrefIterator.walk (.new 8#32 [⟨0, 1⟩, ⟨kClearedJniWeakGlobal, 1⟩, ⟨64#32, 1⟩] 3 3) n
        (.new 8#32 [⟨0, 1⟩, ⟨kClearedJniWeakGlobal, 1⟩, ⟨64#32, 1⟩] 0 3) = some passed) ∧
    passed.Pairwise (· < ·) ∧ ∀ j, j ∈ passed ↔ 0 ≤ j ∧ j < 3 ∧
      ∃ slot, [(⟨0, 1⟩ : IndirectRefSlot), ⟨kClearedJniWeakGlobal, 1⟩, ⟨64#32, 1⟩][j]? =
        some slot ∧ slot.obj ≠ 0 ∧ slot.obj ≠ kClearedJniWeakGlobal :=
  walk_passes_objects 8#32 (by decide) (by decide) (by decide)

theorem get_packRef_ne_invalid_iff {t : IndirectRefTable} {serial : Nat} (hi : i < 65536)
    (hs : serial < 16384) :
    t.get (packRef t.kind_ i serial) ≠ kInvalidIndirectRefObject ↔
      i < t.topIndex.toNat ∧ ∃ slot, t.table_[i]? = some slot ∧ slot.obj ≠ 0 ∧
        slot.obj ≠ kInvalidIndirectRefObject ∧ t.get (packRef t.kind_ i serial) = slot.obj := by
  rw [t.get_eq, if_pos (indirectRefKind_packRef hi hs), indirectRefIndex_packRef hi hs,
    IndirectRefTable.occupant]
  by_cases hlt : i < t.topIndex.toNat
  · have hlen : i < t.table_.length := Nat.lt_of_lt_of_le hlt t.top_le
    by_cases hobj : t.table_[i].obj = 0 ∨ t.table_[i].obj = kInvalidIndirectRefObject
    · simp only [hlt, if_true, List.getElem?_eq_getElem hlen, Option.bind_some, hobj]
      refine iff_of_false (by simp) ?_
      rintro ⟨-, slot, hslot, h0, hinvalid, -⟩
      obtain rfl := Option.some.inj hslot
      exact hobj.elim h0 hinvalid
    · simp only [hlt, if_true, List.getElem?_eq_getElem hlen, Option.bind_some, hobj, if_false]
      obtain ⟨h0, hinvalid⟩ := not_or.mp hobj
      exact iff_of_true hinvalid ⟨trivial, _, rfl, h0, hinvalid, rfl⟩
  · simp only [hlt, if_false]
    exact iff_of_false (by simp) fun h => h.1

/-- `get` resolves what the iterator passes, and the tombstones of cleared weak
references, which the iterator skips. -/
theorem lookup_resolves_walk_and_tombstones (table : Addr) (t : IndirectRefTable) :
    ∃ passed, IrefIterator.walk (.new table t.table_ t.topIndex.toNat t.topIndex.toNat)
        t.topIndex.toNat (.new table t.table_ 0 t.topIndex.toNat) = some passed ∧
      ∀ i serial, i < 65536 → serial < 16384 →
        (t.get (packRef t.kind_ i serial) ≠ kInvalidIndirectRefObject ↔
          i ∈ passed ∧ t.table_[i]?.map IndirectRefSlot.obj ≠ some kInvalidIndirectRefObject ∨
            t.get (packRef t.kind_ i serial) = kClearedJniWeakGlobal) := by
  have hsize : t.topIndex.toNat < 2 ^ 32 := Nat.lt_trans t.topIndex.isLt (by decide)
  refine ⟨_, walk_new hsize (Nat.zero_le _) (Nat.le_refl _), fun i serial hi hs => ?_⟩
  have hmem := mem_shownFrom (j := i) t.top_le (Nat.zero_le _)
  constructor
  · intro hget
    obtain ⟨hlt, slot, hslot, h0, hinvalid, heq⟩ := (get_packRef_ne_invalid_iff hi hs).mp hget
    by_cases hcleared : slot.obj = kClearedJniWeakGlobal
    · exact .inr (heq.trans hcleared)
    · refine .inl ⟨hmem.mpr ⟨Nat.zero_le i, hlt, slot, hslot, h0, hcleared⟩, ?_⟩
      rw [hslot]
      exact fun h => hinvalid (Option.some.inj h)
  · rintro (⟨hpassed, hobj⟩ | hcleared)
    · obtain ⟨-, hlt, slot, hslot, h0, -⟩ := hmem.mp hpassed
      rw [hslot] at hobj
      have hinvalid : slot.obj ≠ kInvalidIndirectRefObject := fun h => hobj (congrArg some h)
      have hocc : t.occupant i = some slot.obj := by
        rw [IndirectRefTable.occupant, if_pos hlt, hslot, Option.bind_some,
          if_neg (not_or.mpr ⟨h0, hinvalid⟩)]
      rw [IndirectRefTable.get_packRef hi hs hocc]
      exact hinvalid
    · rw [hcleared]
      decide

end TaintdroidHack
