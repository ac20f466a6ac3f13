import Monolake.Orchestrator.ServiceExecutor

/-!
The serve loop of a spawned listener, one `select!` round at a time, and the
interleaving of such rounds with the commands of the executor on its thread.

`ServiceExecutor::run` finishes a command before it takes the next one and only
the synchronous tail of a command touches the sites, so a command is one step.
-/
namespace Monolake.Orchestrator

universe u
variable {F LF S L SE LE : Type u}

/-- The branch a round of the serve loop takes: the stop notification, or an
item of the listener, where `none` is its end and `.error` a failed accept. -/
inductive Selected where
  | cancellation
  | accept (item : Option (Except Unit Unit))

def ServiceExecutor.stopLoop (ex : ServiceExecutor F S L) (i : Nat) : ServiceExecutor F S L :=
  { ex with loops := ex.loops.modify i fun lp => { lp with running := false } }

/-- The sender of the loop sees its receiver dropped. -/
def ServiceExecutor.Notified (ex : ServiceExecutor F S L) (lp : ServeLoop L) : Prop :=
  ex.channels[lp.stop]? = some false

instance (ex : ServiceExecutor F S L) (lp : ServeLoop L) : Decidable (ex.Notified lp) :=
  inferInstanceAs (Decidable (_ = _))

/-- One round of `serve` in loop `i`, or `none` when that branch is not ready. -/
def serve (ex : ServiceExecutor F S L) (i : Nat) (selected : Selected) :
    Option (ServiceExecutor F S L) :=
  match ex.loops[i]? with
  | none => none
  | some lp =>
      if lp.running then
        match selected with
        | .cancellation => if ex.Notified lp then some (ex.stopLoop i) else none
        | .accept none => some (ex.stopLoop i)
        | .accept (some (.error _)) => some ex
        | .accept (some (.ok _)) =>
            (ex.slotGetSvc lp.handler).map fun svc =>
              { ex with connections := ex.connections ++ [{ acceptedBy := i, service := svc }] }
      else none

/-- What one step of the thread performed: a command with the answers of its
factories, its result and its factory call, or a round of a serve loop. -/
inductive Event (F LF S L SE LE : Type u) where
  | executed (env : Factories F LF S L SE LE) (cmd : ServiceCommand F LF)
      (result : Except (CommandError SE LE) Unit) (call : Option (FactoryCall F S))
  | served (loop : Nat) (selected : Selected)

def threadStep (ex : ServiceExecutor F S L) :
    Event F LF S L SE LE → ServiceExecutor F S L → Prop
  | .executed env cmd result call, ex' => execute env ex cmd = ⟨ex', result, call⟩
  | .served i selected, ex' => serve ex i selected = some ex'

end Monolake.Orchestrator
