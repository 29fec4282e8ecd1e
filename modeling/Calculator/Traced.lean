import Calculator.Event

/-!
# Traced computations

A computation that may be refused and that reports events on its way.  Events
reported before a refusal stay reported.
-/

namespace Calculator

instance decidableEqExcept {ε α : Type} [DecidableEq ε] [DecidableEq α] :
    DecidableEq (Except ε α)
  | .ok a, .ok b => decidable_of_iff (a = b) ⟨congrArg Except.ok, Except.ok.inj⟩
  | .error a, .error b => decidable_of_iff (a = b) ⟨congrArg Except.error, Except.error.inj⟩
  | .ok _, .error _ => isFalse nofun
  | .error _, .ok _ => isFalse nofun

structure Traced (α : Type) where
  events : List Event
  result : Except EvalError α
  deriving DecidableEq, Repr

namespace Traced

variable {α β : Type}

def ofExcept (result : Except EvalError α) : Traced α := ⟨[], result⟩

def bind (first : Traced α) (next : α → Traced β) : Traced β :=
  match first.result with
  | .ok a =>
      let second := next a
      ⟨first.events ++ second.events, second.result⟩
  | .error error => ⟨first.events, .error error⟩

def map (f : α → β) (first : Traced α) : Traced β :=
  ⟨first.events, first.result.map f⟩

instance : Monad Traced where
  pure a := ⟨[], .ok a⟩
  bind := bind
  map := map

def concluding (event : Except EvalError α → Event) (first : Traced α) : Traced α :=
  ⟨first.events ++ [event first.result], first.result⟩

@[simp] theorem result_bind (first : Traced α) (next : α → Traced β) :
    (first >>= next).result = first.result >>= fun a => (next a).result := by
  rcases first with ⟨events, error | a⟩ <;> rfl

@[simp] theorem result_ofExcept (result : Except EvalError α) :
    (ofExcept result).result = result := rfl

@[simp] theorem result_concluding (event : Except EvalError α → Event) (first : Traced α) :
    (first.concluding event).result = first.result := rfl

end Traced

end Calculator
