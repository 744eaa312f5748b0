import TaintdroidHack.Memory

/-! The table of JNI references and the lookup in it. -/

namespace TaintdroidHack

open Memory

abbrev IndirectRef := BitVec 32

-- The magic failure value, which is not an address on the heap.
def kInvalidIndirectRefObject : Addr := 0xdead4321#32

inductive IndirectRefKind where
  | kIndirectKindInvalid
  | kIndirectKindLocal
  | kIndirectKindGlobal
  | kIndirectKindWeakGlobal
  deriving DecidableEq, Repr

def IndirectRefKind.ofBits : Nat → IndirectRefKind
  | 0 => .kIndirectKindInvalid
  | 1 => .kIndirectKindLocal
  | 2 => .kIndirectKindGlobal
  | _ => .kIndirectKindWeakGlobal

def IndirectRefKind.bits : IndirectRefKind → Nat
  | .kIndirectKindInvalid => 0
  | .kIndirectKindLocal => 1
  | .kIndirectKindGlobal => 2
  | .kIndirectKindWeakGlobal => 3

def indirectRefKind (iref : IndirectRef) : IndirectRefKind :=
  .ofBits (iref &&& 0x03#32).toNat

def indirectRefIndex (iref : IndirectRef) : Nat := ((iref >>> 2) &&& 0xffff#32).toNat

def indirectRefSerial (iref : IndirectRef) : Nat := (iref >>> 18).toNat

structure IndirectRefSlot where
  obj : Addr
  serial : BitVec 32
  deriving DecidableEq, Repr

/-- `topIndex` is the 16-bit field of `segmentState.parts`; the entries in use
lie within the allocated slots. -/
structure IndirectRefTable where
  topIndex : BitVec 16
  table_ : List IndirectRefSlot
  kind_ : IndirectRefKind
  top_le : topIndex.toNat ≤ table_.length

def IndirectRefTable.get (t : IndirectRefTable) (iref : IndirectRef) : Addr :=
  let kind := indirectRefKind iref
  if kind ≠ t.kind_ then
    if iref = 0 then kInvalidIndirectRefObject
    else if kind = .kIndirectKindInvalid then kInvalidIndirectRefObject
    else kInvalidIndirectRefObject
  else
    let index := indirectRefIndex iref
    if h : index ≥ t.topIndex.toNat then kInvalidIndirectRefObject
    else
      have hle := t.top_le
      let obj := (t.table_.get ⟨index, by omega⟩).obj
      if obj = 0 then kInvalidIndirectRefObject else obj

/-- The object a slot holds: none above `topIndex`, in an unused slot, or
where only the failure value stands. -/
def IndirectRefTable.occupant (t : IndirectRefTable) (index : Nat) : Option Addr :=
  if index < t.topIndex.toNat then
    (t.table_[index]?).bind fun slot =>
      if slot.obj = 0 ∨ slot.obj = kInvalidIndirectRefObject then none else some slot.obj
  else none

/-- Everything a lookup can answer: the occupant of the slot that the index
bits name, whatever the serial bits say. -/
theorem IndirectRefTable.get_eq (t : IndirectRefTable) (iref : IndirectRef) :
    t.get iref = if indirectRefKind iref = t.kind_ then
      (t.occupant (indirectRefIndex iref)).getD kInvalidIndirectRefObject
    else kInvalidIndirectRefObject := by
  have hle := t.top_le
  by_cases hk : indirectRefKind iref = t.kind_
  · by_cases hi : indirectRefIndex iref < t.topIndex.toNat
    · have hlen : indirectRefIndex iref < t.table_.length := by omega
      have hge : ¬ indirectRefIndex iref ≥ t.topIndex.toNat := by omega
      simp only [get, occupant, hk, hi, hge, ne_eq, not_true_eq_false, if_false, if_true, dite_false,
        List.getElem?_eq_getElem hlen, List.get_eq_getElem, Option.bind_some]
      by_cases h0 : (t.table_[indirectRefIndex iref]).obj = 0
      · simp [h0]
      · by_cases hinv : (t.table_[indirectRefIndex iref]).obj = kInvalidIndirectRefObject
        · simp [hinv]
        · rw [if_neg h0, if_neg (not_or.mpr ⟨h0, hinv⟩)]
          rfl
    · have hge : indirectRefIndex iref ≥ t.topIndex.toNat := by omega
      simp [get, occupant, hk, hi, hge]
  · simp [get, hk]

def packRef (kind : IndirectRefKind) (index serial : Nat) : IndirectRef :=
  BitVec.ofNat 32 (serial * 2 ^ 18 + index * 4 + kind.bits)

theorem IndirectRefKind.ofBits_bits (kind : IndirectRefKind) : ofBits kind.bits = kind := by
  cases kind <;> rfl

theorem IndirectRefKind.bits_lt (kind : IndirectRefKind) : kind.bits < 4 := by
  cases kind <;> decide

section PackRef

variable {kind : IndirectRefKind} {index serial : Nat} (hi : index < 65536) (hs : serial < 16384)

include hi hs

theorem toNat_packRef :
    (packRef kind index serial).toNat = serial * 2 ^ 18 + index * 4 + kind.bits := by
  have hk := kind.bits_lt
  rw [packRef, BitVec.toNat_ofNat]
  omega

theorem indirectRefKind_packRef : indirectRefKind (packRef kind index serial) = kind := by
  have hk := kind.bits_lt
  have hand : (packRef kind index serial &&& 0x03#32).toNat = kind.bits := by
    rw [BitVec.toNat_and, toNat_packRef hi hs]
    show (serial * 2 ^ 18 + index * 4 + kind.bits) &&& (2 ^ 2 - 1) = kind.bits
    rw [Nat.and_two_pow_sub_one_eq_mod]
    omega
  rw [indirectRefKind, hand, IndirectRefKind.ofBits_bits]

theorem indirectRefIndex_packRef : indirectRefIndex (packRef kind index serial) = index := by
  have hk := kind.bits_lt
  rw [indirectRefIndex, BitVec.toNat_and, BitVec.toNat_ushiftRight, toNat_packRef hi hs,
    Nat.shiftRight_eq_div_pow]
  show (serial * 2 ^ 18 + index * 4 + kind.bits) / 2 ^ 2 &&& (2 ^ 16 - 1) = index
  rw [Nat.and_two_pow_sub_one_eq_mod]
  omega

theorem indirectRefSerial_packRef : indirectRefSerial (packRef kind index serial) = serial := by
  have hk := kind.bits_lt
  rw [indirectRefSerial, BitVec.toNat_ushiftRight, toNat_packRef hi hs, Nat.shiftRight_eq_div_pow]
  omega

end PackRef

end TaintdroidHack
