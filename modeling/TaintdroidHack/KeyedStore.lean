import Mathlib.Logic.Function.Basic
import Mathlib.Data.List.Basic

/-! Histories of writes and reads under keys. A store answers a read with the
latest write under the same key, and an implementation that keeps a relation
to a store answers as the store does. -/

namespace KeyedStore

inductive Op (κ ν : Type*) where
  | write (k : κ) (v : ν)
  | read (k : κ)

variable {κ ν σ : Type*}

def Op.key : Op κ ν → κ
  | .write k _ => k
  | .read k => k

section Store

variable [DecidableEq κ]

def latest (d : ν) (k : κ) : List (Op κ ν) → ν
  | [] => d
  | .write k' v :: ops => latest (if k' = k then v else d) k ops
  | .read _ :: ops => latest d k ops

def latestAnswers (d : ν) (before : List (Op κ ν)) : List (Op κ ν) → List ν
  | [] => []
  | .write k v :: ops => latestAnswers d (before ++ [.write k v]) ops
  | .read k :: ops => latest d k before :: latestAnswers d (before ++ [.read k]) ops

def answers (store : κ → ν) : List (Op κ ν) → List ν
  | [] => []
  | .write k v :: ops => answers (Function.update store k v) ops
  | .read k :: ops => store k :: answers store ops

theorem latest_append_write (d : ν) (k k' : κ) (v : ν) (ops : List (Op κ ν)) :
    latest d k (ops ++ [.write k' v]) = if k' = k then v else latest d k ops := by
  induction ops generalizing d with
  | nil => rfl
  | cons op ops ih =>
    cases op with
    | write k'' w => exact ih (if k'' = k then w else d)
    | read k'' => exact ih d

theorem latest_append_read (d : ν) (k k' : κ) (ops : List (Op κ ν)) :
    latest d k (ops ++ [.read k']) = latest d k ops := by
  induction ops generalizing d with
  | nil => rfl
  | cons op ops ih =>
    cases op with
    | write k'' w => exact ih (if k'' = k then w else d)
    | read k'' => exact ih d

theorem answers_latest (d : ν) (before ops : List (Op κ ν)) :
    answers (fun k => latest d k before) ops = latestAnswers d before ops := by
  induction ops generalizing before with
  | nil => rfl
  | cons op ops ih =>
    cases op with
    | write k' v =>
      have he : Function.update (fun k => latest d k before) k' v =
          fun k => latest d k (before ++ [.write k' v]) := by
        funext k
        rw [latest_append_write, Function.update_apply]
        simp only [eq_comm]
      rw [answers, he, ih, latestAnswers]
    | read k' =>
      have he : (fun k => latest d k before) = fun k => latest d k (before ++ [.read k']) := by
        funext k
        rw [latest_append_read]
      rw [answers, latestAnswers, ← ih, ← he]

end Store

structure Impl (κ ν σ : Type*) where
  write : σ → κ → ν → σ
  read : σ → κ → Option ν

def Impl.answers (impl : Impl κ ν σ) (s : σ) : List (Op κ ν) → Option (List ν)
  | [] => some []
  | .write k v :: ops => impl.answers (impl.write s k v) ops
  | .read k :: ops => (impl.read s k).bind fun v => (impl.answers s ops).map (v :: ·)

/-- The refinement rule, for histories over keys that `K` selects. -/
theorem Impl.answers_eq [DecidableEq κ] {impl : Impl κ ν σ} {K : κ → Prop}
    {R : (κ → ν) → σ → Prop}
    (hwrite : ∀ store s k v, K k → R store s →
      R (Function.update store k v) (impl.write s k v))
    (hread : ∀ store s k, K k → R store s → impl.read s k = some (store k))
    {ops : List (Op κ ν)} (hK : ∀ op ∈ ops, K op.key) {store : κ → ν} {s : σ} (h : R store s) :
    impl.answers s ops = some (KeyedStore.answers store ops) := by
  induction ops generalizing store s with
  | nil => rfl
  | cons op ops ih =>
    have hk := hK op (by simp)
    have hK' : ∀ op ∈ ops, K op.key := fun o ho => hK o (by simp [ho])
    cases op with
    | write k v => exact ih hK' (hwrite store s k v hk h)
    | read k =>
      rw [Impl.answers, hread store s k hk h, Option.bind_some, ih hK' h]
      rfl

end KeyedStore
