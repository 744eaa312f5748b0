import TaintdroidHack.Untaint

/-! The frame of `untaint`: on a string with a separate backing array it clears
one word and leaves every other byte as it was. -/

namespace TaintdroidHack

open Memory

def taintTag (arr : Addr) : Addr := arr + BitVec.ofNat 32 taintOffset

theorem taintTag_eq (arr : Addr) : taintTag arr = arr + 12 := by
  rw [taintTag, taintOffset_eq]
  rfl

-- The contents, from offset 16 on, may be shorter than their declared 8 bytes.
structure StringAt (heap : Heap) (str arr : Addr) : Prop where
  array : StringObject.array heap str = some arr
  mapped : (load32 heap (taintTag arr)).isSome
  separate : Separate str 12 arr 16

structure Beside (str arr str' arr' : Addr) : Prop where
  left : Separate str 12 arr' 16
  right : Separate str' 12 arr 16
  arrays : arr' = arr ∨ Separate arr' 16 arr 16

theorem Beside.symm {str arr str' arr' : Addr} (h : Beside str arr str' arr') :
    Beside str' arr' str arr := by
  refine ⟨h.right, h.left, ?_⟩
  rcases h.arrays with heq | ⟨hp, hq, ho⟩
  · exact Or.inl heq.symm
  · exact Or.inr ⟨hq, hp, ho.symm⟩

theorem StringAt.beside_self {heap : Heap} {str arr : Addr} (h : StringAt heap str arr) :
    Beside str arr str arr := ⟨h.separate, h.separate, Or.inl rfl⟩

def stringTaint (heap : Heap) (str : Addr) : Option (BitVec 32) :=
  (StringObject.array heap str).bind fun arr => load32 heap (taintTag arr)

def SameBlock (heap heap' : Heap) (p : Addr) (n : Nat) : Prop :=
  ∀ x, InRange p n x → heap' x = heap x

theorem StringAt.stringTaint_eq {heap : Heap} {str arr : Addr} (h : StringAt heap str arr) :
    stringTaint heap str = load32 heap (taintTag arr) := by
  rw [stringTaint, h.array, Option.bind_some]

theorem untaint_of_stringAt {heap : Heap} {self : Thread} {iref : IndirectRef} {arr : Addr}
    (h : StringAt heap (self.jniLocalRefTable.get iref) arr) :
    untaint heap self iref = ⟨some iref, put32 heap (taintTag arr) TAINT_CLEAR, self,
      [.load (self.jniLocalRefTable.get iref) 8, .store arr taintOffset]⟩ := by
  have hmapped : (load32 heap (arr + BitVec.ofNat 32 taintOffset)).isSome := h.mapped
  simp only [untaint, dvmChangeStatus_thread, h.array, store32, hmapped, if_true]
  rfl

theorem StringAt.put32 {heap : Heap} {str arr str' arr' : Addr} (v : BitVec 32)
    (h : StringAt heap str' arr') (hb : Beside str arr str' arr') :
    StringAt (put32 heap (taintTag arr) v) str' arr' := by
  refine ⟨?_, ?_, h.separate⟩
  · have hapart : Apart (taintTag arr) (str' + BitVec.ofNat 32 8) :=
      (hb.right.apart (i := 8) (j := taintOffset) (by decide) (by decide)).symm
    rw [StringObject.array, dvmGetFieldObject, load32_put32_of_apart heap v hapart]
    exact h.array
  · rcases hb.arrays with rfl | hsep
    · rw [load32_put32_self]
      rfl
    · have hapart : Apart (taintTag arr) (taintTag arr') :=
        (hsep.apart (i := taintOffset) (j := taintOffset) (by decide) (by decide)).symm
      rw [load32_put32_of_apart heap v hapart]
      exact h.mapped

theorem sameBlock_put32 {heap : Heap} {a p : Addr} {n : Nat} {v : BitVec 32}
    (h : ∀ x, InRange p n x → ¬ InRange a 4 x) : SameBlock heap (put32 heap a v) p n :=
  fun x hx => put32_of_not_inRange heap v (h x hx)

theorem not_inRange_taintTag_of_separate {p arr x : Addr} {n : Nat} (h : Separate p n arr 16)
    (hx : InRange p n x) : ¬ InRange (taintTag arr) 4 x := by
  obtain ⟨hp, harr, ho⟩ := h
  intro ht
  simp only [InRange, taintTag_eq] at hx ht
  bv_omega

theorem stringTaint_put32 {heap : Heap} {str arr str' arr' : Addr} (v : BitVec 32)
    (h : StringAt heap str' arr') (hb : Beside str arr str' arr') :
    stringTaint (put32 heap (taintTag arr) v) str' =
      if arr' = arr then some v else stringTaint heap str' := by
  rw [(h.put32 v hb).stringTaint_eq, h.stringTaint_eq]
  by_cases heq : arr' = arr
  · rw [if_pos heq, heq, load32_put32_self]
  · have hsep := hb.arrays.resolve_left heq
    have hapart : Apart (taintTag arr) (taintTag arr') :=
      (hsep.apart (i := taintOffset) (j := taintOffset) (by decide) (by decide)).symm
    rw [if_neg heq, load32_put32_of_apart heap v hapart]

theorem put32_taintTag_comm {heap : Heap} {str arr str' arr' : Addr}
    (hb : Beside str arr str' arr') (v : BitVec 32) :
    put32 (put32 heap (taintTag arr) v) (taintTag arr') v =
      put32 (put32 heap (taintTag arr') v) (taintTag arr) v := by
  rcases hb.arrays with heq | hsep
  · rw [heq]
  · exact put32_comm heap v v
      (hsep.apart (i := taintOffset) (j := taintOffset) (by decide) (by decide)).symm

structure UntaintFrame (heap : Heap) (self : Thread) (iref : IndirectRef) (str arr : Addr)
    (run : UntaintRun) : Prop where
  returned : run.returned = some iref
  table : run.thread.jniLocalRefTable = self.jniLocalRefTable
  cleared : load32 run.heap (arr + 12) = some TAINT_CLEAR
  frame : ∀ x, ¬ InRange (arr + 12) 4 x → run.heap x = heap x
  fields : SameBlock heap run.heap str 12
  header : SameBlock heap run.heap arr 12
  contents : ∀ n, arr.toNat + 16 + n ≤ 2 ^ 32 → SameBlock heap run.heap (arr + 16) n
  others : ∀ p n, Separate p n arr 16 → SameBlock heap run.heap p n
  shared : ∀ str' arr', StringAt heap str' arr' → Beside str arr str' arr' →
    stringTaint run.heap str' = if arr' = arr then some TAINT_CLEAR else stringTaint heap str'
  idempotent : (untaint run.heap run.thread iref).returned = some iref ∧
    (untaint run.heap run.thread iref).heap = run.heap
  commute : ∀ iref' str' arr', self.jniLocalRefTable.get iref' = str' →
    StringAt heap str' arr' → Beside str arr str' arr' →
    (untaint run.heap run.thread iref').returned = some iref' ∧
      (untaint run.heap run.thread iref').heap =
        (untaint (untaint heap self iref').heap (untaint heap self iref').thread iref).heap

/-- `untaint` on a reference to a string clears the tag of its character array and
nothing else, whatever else shares the array. -/
theorem untaint_frame (heap : Heap) (self : Thread) (iref : IndirectRef) (str arr : Addr)
    (hget : self.jniLocalRefTable.get iref = str) (hstr : StringAt heap str arr) :
    UntaintFrame heap self iref str arr (untaint heap self iref) := by
  subst hget
  have hagain := hstr.put32 TAINT_CLEAR hstr.beside_self
  rw [untaint_of_stringAt hstr]
  refine {
    returned := rfl
    table := rfl
    cleared := taintTag_eq arr ▸ load32_put32_self heap (taintTag arr) TAINT_CLEAR
    frame := fun x hx => put32_of_not_inRange heap TAINT_CLEAR (taintTag_eq arr ▸ hx)
    fields := sameBlock_put32 fun x hx => not_inRange_taintTag_of_separate hstr.separate hx
    header := sameBlock_put32 fun x hx ht => ?_
    contents := fun n hn => sameBlock_put32 fun x hx ht => ?_
    others := fun p n hp => sameBlock_put32 fun x hx => not_inRange_taintTag_of_separate hp hx
    shared := fun str' arr' hstr' hb => stringTaint_put32 TAINT_CLEAR hstr' hb
    idempotent := ?_
    commute := ?_ }
  · have harr := hstr.separate.2.1
    simp only [InRange, taintTag_eq] at hx ht
    bv_omega
  · simp only [InRange, taintTag_eq] at hx ht
    bv_omega
  · rw [untaint_of_stringAt hagain]
    exact ⟨rfl, put32_put32_self heap (taintTag arr) TAINT_CLEAR⟩
  · intro iref' str' arr' hget' hstr' hb
    subst hget'
    have hfirst := hstr'.put32 TAINT_CLEAR hb
    have hsecond := hstr.put32 TAINT_CLEAR hb.symm
    rw [untaint_of_stringAt hstr', untaint_of_stringAt hfirst, untaint_of_stringAt hsecond]
    exact ⟨rfl, put32_taintTag_comm hb TAINT_CLEAR⟩

theorem untaint_frame_tainted :
    load32 (put32 (fun _ => some 1) 0x1008#32 0x2000#32) 0x200c#32 = some 0x01010101#32 ∧
      UntaintFrame (put32 (fun _ => some 1) 0x1008#32 0x2000#32) ⟨.THREAD_NATIVE, reusedSlot⟩ 1
        0x1000#32 0x2000#32
        (untaint (put32 (fun _ => some 1) 0x1008#32 0x2000#32) ⟨.THREAD_NATIVE, reusedSlot⟩ 1) :=
  ⟨by decide, untaint_frame _ _ _ _ _ (by decide)
    ⟨by decide, by decide, by decide, by decide, by decide⟩⟩

end TaintdroidHack
