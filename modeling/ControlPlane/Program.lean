/-! Programs that ask their surroundings. A program is done, or it makes one request and goes on
with the reply, whatever that is. What requests mean is left to whoever runs the program; so one
program can be run against scripted replies, against a store, or in turns with other programs. -/

namespace ControlPlane

/-- The requests of a kind of program, and what each of them is answered with. -/
structure Interface where
  Request : Type
  Reply : Request → Type

inductive Program (I : Interface) (α : Type) where
  | done (a : α)
  | ask (request : I.Request) (next : I.Reply request → Program I α)

namespace Program
variable {I : Interface} {α β : Type}

def bind : Program I α → (α → Program I β) → Program I β
  | done a, f => f a
  | ask r next, f => ask r fun reply => (next reply).bind f

instance : Monad (Program I) where
  pure := done
  bind := bind

@[simp] theorem done_bind (a : α) (f : α → Program I β) : (done a >>= f) = f a := rfl

@[simp] theorem ask_bind (r : I.Request) (next : I.Reply r → Program I α)
    (f : α → Program I β) :
    (ask r next >>= f) = ask r fun reply => next reply >>= f := rfl

@[simp] theorem pure_eq_done (a : α) : (pure a : Program I α) = done a := rfl

instance : LawfulMonad (Program I) :=
  LawfulMonad.mk' _
    (fun p => by
      induction p with
      | done a => rfl
      | ask r next ih => exact congrArg (ask r) (funext ih))
    (fun _ _ => rfl)
    (fun p f g => by
      induction p with
      | done a => rfl
      | ask r next ih => exact congrArg (ask r) (funext ih))

/-- The program that makes one request. -/
def call (r : I.Request) : Program I (I.Reply r) := ask r done

/-- Runs a program in a monad that answers its requests. -/
def run {m : Type → Type} [Monad m] (answer : (r : I.Request) → m (I.Reply r)) :
    Program I α → m α
  | done a => pure a
  | ask r next => do run answer (next (← answer r))

end Program
end ControlPlane
