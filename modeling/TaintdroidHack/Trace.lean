import TaintdroidHack.Native

/-! The observable steps of a native call: what it acquires and releases, the
transfers it asks for, and what it logs. -/

namespace TaintdroidHack

inductive CharsOf where
  | content
  | host
  | dir
  | path
  deriving DecidableEq, Repr

inductive Resource where
  | socket (fd : Int)
  | file (path : Bytes)
  | chars (arg : CharsOf)
  deriving DecidableEq, Repr

inductive Event where
  | acquire (r : Resource)
  | release (r : Resource)
  | write (offset : Int) (count : Nat) (result : Int)
  | read (offset : Int) (count : Nat) (result : Int)
  | logi (text : String)
  | logResponse (text : Bytes)
  deriving DecidableEq, Repr

def Event.isResource : Event → Bool
  | .acquire _ => true
  | .release _ => true
  | _ => false

def resources (t : List Event) : List Event := t.filter Event.isResource

/-- What is held after a trace that started with `held`. There is no answer
once something is released that is not held. -/
def holdings (held : List Resource) : List Event → Option (List Resource)
  | [] => some held
  | .acquire r :: t => holdings (r :: held) t
  | .release r :: t => if r ∈ held then holdings (held.erase r) t else none
  | _ :: t => holdings held t

def Balanced (t : List Event) : Prop := holdings [] t = some []

instance : DecidablePred Balanced := fun t =>
  inferInstanceAs (Decidable (holdings [] t = some []))

@[simp] theorem resources_append (t u : List Event) :
    resources (t ++ u) = resources t ++ resources u := List.filter_append _ _

theorem holdings_resources (held : List Resource) (t : List Event) :
    holdings held (resources t) = holdings held t := by
  induction t generalizing held with
  | nil => rfl
  | cons e t ih =>
    cases e with
    | acquire r => exact ih (r :: held)
    | release r =>
      have hkeep : resources (.release r :: t) = .release r :: resources t := rfl
      by_cases hr : r ∈ held
      · simpa only [hkeep, holdings, hr, if_true] using ih (held.erase r)
      · simp only [hkeep, holdings, hr, if_false]
    | write _ _ _ => exact ih held
    | read _ _ _ => exact ih held
    | logi _ => exact ih held
    | logResponse _ => exact ih held

theorem balanced_resources (t : List Event) : Balanced (resources t) ↔ Balanced t := by
  rw [Balanced, Balanced, holdings_resources]

theorem holdings_append (held : List Resource) (t u : List Event) :
    holdings held (t ++ u) = (holdings held t).bind fun h => holdings h u := by
  induction t generalizing held with
  | nil => rfl
  | cons e t ih =>
    cases e with
    | acquire r => exact ih (r :: held)
    | release r =>
      by_cases hr : r ∈ held
      · simpa [holdings, hr] using ih (held.erase r)
      · simp [holdings, hr]
    | write _ _ _ => exact ih held
    | read _ _ _ => exact ih held
    | logi _ => exact ih held
    | logResponse _ => exact ih held

theorem holdings_frame {held after : List Resource} {t : List Event} (before : List Resource)
    (h : holdings held t = some after) : holdings (held ++ before) t = some (after ++ before) := by
  induction t generalizing held with
  | nil =>
    obtain rfl := Option.some.inj h
    rfl
  | cons e t ih =>
    cases e with
    | acquire r =>
      have hr : holdings (r :: held) t = some after := h
      exact ih hr
    | release r =>
      by_cases hr : r ∈ held
      · rw [holdings, if_pos hr] at h
        rw [holdings, if_pos (List.mem_append_left _ hr), List.erase_append_left _ hr]
        exact ih h
      · simp [holdings, hr] at h
    | write _ _ _ => exact ih h
    | read _ _ _ => exact ih h
    | logi _ => exact ih h
    | logResponse _ => exact ih h

theorem Balanced.holdings_eq {t : List Event} (h : Balanced t) (held : List Resource) :
    holdings held t = some held := holdings_frame held h

theorem holdings_flatten {ts : List (List Event)} (h : ∀ t ∈ ts, Balanced t)
    (held : List Resource) : holdings held ts.flatten = some held := by
  induction ts with
  | nil => rfl
  | cons t ts ih =>
    rw [List.flatten_cons, holdings_append, (h t (by simp)).holdings_eq, Option.bind_some]
    exact ih fun u hu => h u (by simp [hu])

end TaintdroidHack
