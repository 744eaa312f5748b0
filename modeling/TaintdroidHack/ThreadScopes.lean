import Mathlib.Combinatorics.Enumerative.DyckWord
import TaintdroidHack.Untaint

/-! Nested scopes of `ScopedJniThreadState` on one thread. A well-nested
sequence of constructions and destructions is a Dyck word. -/

namespace TaintdroidHack

open DyckStep

def ScopedJniThreadState.construct (self : Thread) : ThreadStatus × Thread :=
  dvmChangeStatus self .THREAD_RUNNING

def ScopedJniThreadState.destruct (self : Thread) : ThreadStatus × Thread :=
  dvmChangeStatus self .THREAD_NATIVE

def scopeCall : DyckStep → Thread → ThreadStatus × Thread
  | U => ScopedJniThreadState.construct
  | D => ScopedJniThreadState.destruct

def scopeStatus : DyckStep → ThreadStatus
  | U => .THREAD_RUNNING
  | D => .THREAD_NATIVE

def runScopes (self : Thread) (steps : List DyckStep) : Thread :=
  steps.foldl (fun self step => (scopeCall step self).2) self

def liveScopes (steps : List DyckStep) : Nat := steps.count U - steps.count D

/-- The points of a run are before, between and after its steps. -/
structure Disciplined (thread : Thread) (steps : List DyckStep) : Prop where
  running : ∀ i, 0 < liveScopes (steps.take i) →
    (runScopes thread (steps.take i)).status = .THREAD_RUNNING
  native : ∀ i, liveScopes (steps.take i) = 0 →
    (runScopes thread (steps.take i)).status = .THREAD_NATIVE
  stores : ∀ i step, steps[i]? = some step →
    (scopeCall step (runScopes thread (steps.take i))).2.status = scopeStatus step
  returns : ∀ i step, steps[i]? = some step →
    (scopeCall step (runScopes thread (steps.take i))).1 = (runScopes thread (steps.take i)).status

theorem dvmChangeStatus_fst (self : Thread) (newStatus : ThreadStatus) :
    (dvmChangeStatus self newStatus).1 = self.status := by
  rw [dvmChangeStatus]
  split <;> rfl

theorem scopeCall_eq (step : DyckStep) (self : Thread) :
    scopeCall step self = (self.status, self) := by
  cases step with
  | U => exact Prod.ext (dvmChangeStatus_fst self _) (dvmChangeStatus_thread self _)
  | D => exact Prod.ext (dvmChangeStatus_fst self _) (dvmChangeStatus_thread self _)

theorem runScopes_eq (self : Thread) (steps : List DyckStep) : runScopes self steps = self := by
  induction steps with
  | nil => rfl
  | cons step steps ih =>
    have hstep : runScopes self (step :: steps) = runScopes (scopeCall step self).2 steps := rfl
    rw [hstep, scopeCall_eq, ih]

/-- `dvmChangeStatus` stores no status, so that the discipline holds only where
no scope is opened. -/
theorem disciplined_iff_no_scope {self : Thread} (hs : self.status = .THREAD_NATIVE)
    (p : DyckWord) : Disciplined self p ↔ p = 0 := by
  constructor
  · intro h
    by_contra hne
    have hnil := DyckWord.toList_ne_nil.mpr hne
    have hfirst : p.toList[0]? = some U := by
      rw [← List.head?_eq_getElem?, List.head?_eq_some_head hnil, DyckWord.head_eq_U]
    have hstored := h.stores 0 U hfirst
    rw [runScopes_eq, scopeCall_eq] at hstored
    have hboth : ThreadStatus.THREAD_NATIVE = .THREAD_RUNNING := hs.symm.trans hstored
    contradiction
  · intro h
    subst h
    refine ⟨fun i hi => ?_, fun i _ => ?_, fun i step hi => ?_, fun i step hi => ?_⟩
    · have hlive : liveScopes (List.take i []) = 0 := by rw [List.take_nil]; rfl
      exact absurd hi (by rw [DyckWord.toList_eq_nil.mpr rfl, hlive]; omega)
    · rw [runScopes_eq]
      exact hs
    · contradiction
    · contradiction

theorem disciplined_iff_no_scope_single :
    Disciplined emptyLocals (DyckWord.nest 0) ↔ DyckWord.nest 0 = 0 :=
  disciplined_iff_no_scope rfl (DyckWord.nest 0)

theorem live_scope_stays_native :
    emptyLocals.status = .THREAD_NATIVE ∧
      liveScopes ((DyckWord.nest 0).toList.take 1) = 1 ∧
      (runScopes emptyLocals ((DyckWord.nest 0).toList.take 1)).status = .THREAD_NATIVE ∧
      ¬ Disciplined emptyLocals (DyckWord.nest 0) := by
  have hstatus : (runScopes emptyLocals ((DyckWord.nest 0).toList.take 1)).status =
      .THREAD_NATIVE := by rw [runScopes_eq]; rfl
  refine ⟨rfl, rfl, hstatus, fun h => ?_⟩
  have hrunning := h.running 1 Nat.one_pos
  rw [hstatus] at hrunning
  contradiction

end TaintdroidHack
