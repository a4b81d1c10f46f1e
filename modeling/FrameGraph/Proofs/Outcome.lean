import FrameGraph.Effect
import Mathlib.Data.List.Forall2

/-! # Assertions on results

A computation without a state comes to a result or to an error, and each is asserted something of.
-/

namespace FrameGraph

variable {α β γ ε δ : Type}

/-- A result is as in `ok` and an error as in `failed`. -/
def Comes (ok : α → Prop) (failed : ε → Prop) : Except ε α → Prop
  | .ok a => ok a
  | .error e => failed e

/-- What is done with a result came to a result only after the first did. -/
theorem bind_eq_ok {first : Except ε α} {next : α → Except ε β} {b : β} (run : first >>= next = .ok b) :
    ∃ a, first = .ok a ∧ next a = .ok b := by
  cases first with
  | error e => cases run
  | ok a => exact ⟨a, rfl, run⟩

/-- What is needed comes to a result only when it is there. -/
theorem need_eq_ok {error : ε} {value : Option α} {a : α} (found : (need error value : Except ε α) = .ok a) : value = some a := by
  cases value with
  | none => cases found
  | some _ => exact congrArg some (Except.ok.inj found)

/-- A result that can be read off is what the computation came to. -/
theorem ok_of_toOption {outcome : Except ε α} {a : α} (read : outcome.toOption = some a) : outcome = .ok a := by
  cases outcome with
  | error e => cases read
  | ok _ => exact congrArg Except.ok (Option.some.inj read)

namespace Comes

variable {ok : α → Prop} {failed : ε → Prop}

theorem result {outcome : Except ε α} (comes : Comes ok failed outcome) {a : α} (found : outcome = .ok a) :
    ok a := by
  rwa [found] at comes

theorem error {outcome : Except ε α} (comes : Comes ok failed outcome) {e : ε} (found : outcome = .error e) :
    failed e := by
  rwa [found] at comes

theorem mono {ok' : α → Prop} {failed' : ε → Prop} {outcome : Except ε α} (comes : Comes ok failed outcome)
    (later : ∀ a, ok a → ok' a) (fails : ∀ e, failed e → failed' e) : Comes ok' failed' outcome := by
  cases outcome with
  | error e => exact fails e comes
  | ok a => exact later a comes

theorem any (outcome : Except ε α) : Comes (fun _ => True) (fun _ => True) outcome := by
  cases outcome <;> trivial

/-- A result is what the computation came to. -/
theorem itself (outcome : Except ε α) : Comes (fun a => outcome = .ok a) (fun _ => True) outcome := by
  cases outcome with
  | error e => trivial
  | ok a => rfl

theorem bind {ok : β → Prop} {middle : α → Prop} {first : Except ε α} {next : α → Except ε β}
    (comes : Comes middle failed first) (rest : ∀ a, middle a → Comes ok failed (next a)) :
    Comes ok failed (first >>= next) := by
  cases first with
  | error e => exact comes
  | ok a => exact rest a comes

theorem map {ok : β → Prop} {f : α → β} {outcome : Except ε α} (comes : Comes (fun a => ok (f a)) failed outcome) :
    Comes ok failed (outcome.map f) := by
  cases outcome <;> exact comes

theorem need {error : ε} {value : Option α} (found : ∀ a, value = some a → ok a)
    (absent : value = none → failed error) : Comes ok failed (FrameGraph.need error value) := by
  cases value with
  | none => exact absent rfl
  | some a => exact found a rfl

theorem ofNeed {ok : β → Prop} {error : ε} {value : Option α} {next : α → Except ε β}
    (found : ∀ a, value = some a → Comes ok failed (next a)) (absent : value = none → failed error) :
    Comes ok failed (FrameGraph.need error value >>= next) := by
  cases value with
  | none => exact absent rfl
  | some a => exact found a rfl

theorem mapM {made : γ → β → Prop} {f : γ → Except ε β} {xs : List γ}
    (step : ∀ x ∈ xs, Comes (made x) failed (f x)) :
    Comes (List.Forall₂ made xs) failed (xs.mapM f) := by
  induction xs with
  | nil => exact .nil
  | cons x rest ih =>
    rw [List.mapM_cons]
    refine (step x List.mem_cons_self).bind fun b one => ?_
    exact (ih fun x found => step x (List.mem_cons_of_mem _ found)).bind fun bs all => .cons one all

theorem optionMapM {made : γ → β → Prop} {f : γ → Except ε β} {value : Option γ}
    (step : ∀ x, value = some x → Comes (made x) failed (f x)) :
    Comes (Option.Rel made value) failed (value.mapM f) := by
  cases value with
  | none => exact .none
  | some x => exact (step x rfl).bind fun b one => .some one

end Comes

end FrameGraph
