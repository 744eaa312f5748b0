import TaintdroidHack.IndirectRefTable

/-! `untaint` on the heap of the virtual machine: which object it reaches, and
what it does where the lookup fails or the reference is stale. -/

namespace TaintdroidHack

open Memory

def TAINT_CLEAR : BitVec 32 := 0x00000000#32

def objectMembers : List Member := [⟨"clazz", 4, 4⟩, ⟨"lock", 4, 4⟩]

def stringObjectMembers : List Member := objectMembers ++ [⟨"instanceData", 4, 4⟩]

def arrayObjectMembers : List Member :=
  objectMembers ++ [⟨"length", 4, 4⟩, ⟨"taint", 4, 4⟩, ⟨"contents", 8, 8⟩]

def taintOffset : Nat := (offsetOf arrayObjectMembers "taint").getD 0

theorem taintOffset_eq : taintOffset = 12 := by decide

inductive ThreadStatus where
  | THREAD_UNDEFINED
  | THREAD_ZOMBIE
  | THREAD_RUNNING
  | THREAD_TIMED_WAIT
  | THREAD_MONITOR
  | THREAD_WAIT
  | THREAD_INITIALIZING
  | THREAD_STARTING
  | THREAD_NATIVE
  | THREAD_VMWAIT
  | THREAD_SUSPENDED
  deriving DecidableEq, Repr

structure Thread where
  status : ThreadStatus
  jniLocalRefTable : IndirectRefTable

-- Neither branch stores the new status.
def dvmChangeStatus (self : Thread) (newStatus : ThreadStatus) : ThreadStatus × Thread :=
  let oldStatus := self.status
  if oldStatus = newStatus then (oldStatus, self) else (oldStatus, self)

theorem dvmChangeStatus_thread (self : Thread) (newStatus : ThreadStatus) :
    (dvmChangeStatus self newStatus).2 = self := by
  rw [dvmChangeStatus]
  split <;> rfl

def dvmGetFieldObject (heap : Heap) (obj : Addr) (offset : Nat) : Option Addr :=
  load32 heap (obj + BitVec.ofNat 32 offset)

def StringObject.array (heap : Heap) (str : Addr) : Option Addr := dvmGetFieldObject heap str 8

theorem StringObject.array_eq (heap : Heap) (str : Addr) : some (array heap str) =
    (offsetOf stringObjectMembers "instanceData").map (dvmGetFieldObject heap str) := by
  have hoffset : offsetOf stringObjectMembers "instanceData" = some 8 := by decide
  rw [hoffset, Option.map_some, array]

inductive Access where
  | load (base : Addr) (offset : Nat)
  | store (base : Addr) (offset : Nat)
  deriving DecidableEq, Repr

/-- `returned` is `none` where an access faults, which ends the process. -/
structure UntaintRun where
  returned : Option IndirectRef
  heap : Heap
  thread : Thread
  accesses : List Access

def untaint (heap : Heap) (self : Thread) (content_ : IndirectRef) : UntaintRun :=
  let entered := (dvmChangeStatus self .THREAD_RUNNING).2
  let str := entered.jniLocalRefTable.get content_
  match StringObject.array heap str with
  | none => ⟨none, heap, entered, [.load str 8]⟩
  | some arr =>
    match store32 heap (arr + BitVec.ofNat 32 taintOffset) TAINT_CLEAR with
    | none => ⟨none, heap, entered, [.load str 8, .store arr taintOffset]⟩
    | some heap' =>
      ⟨some content_, heap', (dvmChangeStatus entered .THREAD_NATIVE).2,
        [.load str 8, .store arr taintOffset]⟩

theorem load_mem_accesses_untaint (heap : Heap) (self : Thread) (content_ : IndirectRef) :
    Access.load (self.jniLocalRefTable.get content_) 8 ∈ (untaint heap self content_).accesses := by
  simp only [untaint, dvmChangeStatus_thread]
  split
  · exact List.mem_cons_self
  · split <;> exact List.mem_cons_self

def UntaintRun.Rejects (run : UntaintRun) (heap : Heap) (self : Thread) : Prop :=
  (∀ offset, Access.load kInvalidIndirectRefObject offset ∉ run.accesses) ∧
    run.heap = heap ∧ run.thread.jniLocalRefTable = self.jniLocalRefTable ∧ run.returned.isSome

/-- A reference that resolves to the failure value is read through like any other. -/
theorem untaint_never_rejects (heap : Heap) (self : Thread) (content_ : IndirectRef)
    (hget : self.jniLocalRefTable.get content_ = kInvalidIndirectRefObject) :
    ¬ (untaint heap self content_).Rejects heap self := by
  intro hrejects
  apply hrejects.1 8
  rw [← hget]
  exact load_mem_accesses_untaint heap self content_

def emptyLocals : Thread := ⟨.THREAD_NATIVE, ⟨0, [], .kIndirectKindLocal, Nat.le_refl _⟩⟩

theorem untaint_never_rejects_null :
    emptyLocals.jniLocalRefTable.get 0 = kInvalidIndirectRefObject ∧
      ¬ (untaint (fun _ => none) emptyLocals 0).Rejects (fun _ => none) emptyLocals :=
  ⟨by decide, untaint_never_rejects (fun _ => none) emptyLocals 0 (by decide)⟩

theorem untaint_null_clears_foreign_word :
    emptyLocals.jniLocalRefTable.get 0 = kInvalidIndirectRefObject ∧
      (untaint (fun _ => some 1) emptyLocals 0).heap 0x0101010d#32 = some 0 ∧
      ¬ (untaint (fun _ => some 1) emptyLocals 0).Rejects (fun _ => some 1) emptyLocals := by
  have hword : (untaint (fun _ => some 1) emptyLocals 0).heap 0x0101010d#32 = some 0 := by decide
  refine ⟨by decide, hword, fun hrejects => ?_⟩
  rw [hrejects.2.1] at hword
  exact absurd hword (by decide)

/-- Only the reference that matches the slot's serial number resolves, and
`untaint` through any other spares the object now in the slot. -/
structure IndirectRefTable.StaleRejected (t : IndirectRefTable) (index : BitVec 16) : Prop where
  get : ∀ iref, indirectRefKind iref = t.kind_ → indirectRefIndex iref = index.toNat →
    t.get iref ≠ kInvalidIndirectRefObject →
    ∃ slot, t.table_[index.toNat]? = some slot ∧
      indirectRefSerial iref = slot.serial.toNat % 2 ^ 14
  untaint : ∀ heap self iref slot arr, self.jniLocalRefTable = t →
    indirectRefKind iref = t.kind_ → indirectRefIndex iref = index.toNat →
    t.table_[index.toNat]? = some slot → indirectRefSerial iref ≠ slot.serial.toNat % 2 ^ 14 →
    t.occupant index.toNat = some slot.obj → StringObject.array heap slot.obj = some arr →
    load32 (TaintdroidHack.untaint heap self iref).heap (arr + BitVec.ofNat 32 taintOffset) =
      load32 heap (arr + BitVec.ofNat 32 taintOffset)

theorem IndirectRefTable.ne_invalid_of_occupant {t : IndirectRefTable} {index : Nat} {obj : Addr}
    (ho : t.occupant index = some obj) : obj ≠ kInvalidIndirectRefObject := by
  rw [occupant] at ho
  split at ho
  · obtain ⟨slot, -, hobj⟩ := Option.bind_eq_some_iff.mp ho
    split at hobj
    · contradiction
    · rename_i hne
      obtain rfl := Option.some.inj hobj
      exact (not_or.mp hne).2
  · contradiction

/-- The serial bits of an occupied slot's references decide nothing: each of
the 2¹⁴ references with its kind and index resolves to the occupant. -/
theorem IndirectRefTable.get_packRef {t : IndirectRefTable} {index serial : Nat} {obj : Addr}
    (hi : index < 65536) (hs : serial < 16384) (ho : t.occupant index = some obj) :
    t.get (packRef t.kind_ index serial) = obj := by
  rw [get_eq, if_pos (indirectRefKind_packRef hi hs), indirectRefIndex_packRef hi hs, ho]
  rfl

/-- The serial number of a reference is never compared: stale references are
rejected at the indices that nothing occupies, and nowhere else. -/
theorem staleRejected_iff_unoccupied (t : IndirectRefTable) (index : BitVec 16) :
    t.StaleRejected index ↔ t.occupant index.toNat = none := by
  constructor
  · intro hstale
    by_contra hsome
    obtain ⟨obj, ho⟩ := Option.ne_none_iff_exists'.mp hsome
    have hserial : ∀ serial < 16384, ∃ slot, t.table_[index.toNat]? = some slot ∧
        serial = slot.serial.toNat % 2 ^ 14 := by
      intro serial hs
      have hget := t.get_packRef index.isLt hs ho
      obtain ⟨slot, hslot, heq⟩ := hstale.get (packRef t.kind_ index.toNat serial)
        (indirectRefKind_packRef index.isLt hs) (indirectRefIndex_packRef index.isLt hs)
        (hget ▸ IndirectRefTable.ne_invalid_of_occupant ho)
      exact ⟨slot, hslot, indirectRefSerial_packRef index.isLt hs ▸ heq⟩
    obtain ⟨slot, hslot, h0⟩ := hserial 0 (by omega)
    obtain ⟨slot', hslot', h1⟩ := hserial 1 (by omega)
    obtain rfl := Option.some.inj (hslot.symm.trans hslot')
    omega
  · intro hnone
    have hinvalid : ∀ iref, indirectRefIndex iref = index.toNat →
        t.get iref = kInvalidIndirectRefObject := by
      intro iref hindex
      rw [t.get_eq, hindex, hnone, Option.getD_none, ite_self]
    refine ⟨fun iref _ hindex hne => absurd (hinvalid iref hindex) hne, ?_⟩
    intro _ _ _ slot _ _ _ _ _ _ ho
    rw [hnone] at ho
    contradiction

-- The slot is at its second occupant; the reference of the first has serial bits 0.
def reusedSlot : IndirectRefTable := ⟨1, [⟨0x1000#32, 1⟩], .kIndirectKindLocal, Nat.le_refl _⟩

theorem reusedSlot_stale_resolves :
    reusedSlot.get 1 = 0x1000#32 ∧ indirectRefSerial 1 = 0 ∧
      load32 (untaint (fun _ => some 1) ⟨.THREAD_NATIVE, reusedSlot⟩ 1).heap 0x0101010d#32 =
        some TAINT_CLEAR ∧ ¬ reusedSlot.StaleRejected 0 := by
  refine ⟨by decide, by decide, by decide, fun hstale => ?_⟩
  obtain ⟨slot, hslot, hserial⟩ := hstale.get 1 (by decide) (by decide) (by decide)
  obtain rfl := Option.some.inj hslot
  exact absurd hserial (by decide)

end TaintdroidHack
