import Mathlib.Data.List.AList
import Monolake.Orchestrator.WorkerManager

/-!
The static file config manager: reading a file, diffing it against the online
services, and the two-stage reload of every worker.

File contents, the outcome of reading and of parsing, the factories and the
iteration order of the hash set in `diff` are inputs of an attempt. `none` is a
panic, after which there is no manager any more.
-/
namespace Monolake.Config

universe u
open Orchestrator

variable {F LF S L SE LE LC SC IE PE : Type u}

structure ServiceConfig (LC SC : Type u) where
  listener : LC
  server : SC

abbrev ServiceConfigMap (LC SC : Type u) := AList fun _ : Name => ServiceConfig LC SC

inductive Patch (LC SC : Type u) where
  | insert (key : Name) (listenerConfig : LC) (serverConfig : SC)
  | update (key : Name) (serverConfig : SC)
  | delete (key : Name)

def Patch.key : Patch LC SC → Name
  | .insert key _ _ | .update key _ | .delete key => key

/-- The order in which a hash set happens to yield its elements. -/
structure IterationOrder where
  arrange : List Name → List Name
  perm : ∀ keys, (arrange keys).Perm keys

/-- How the factories of each worker answer in one attempt, by the key of the
patch and the position of the worker. -/
structure Outcomes (F LF S L SE LE : Type u) where
  prepare : Name → Nat → Factories F LF S L SE LE
  commit : Name → Nat → Factories F LF S L SE LE
  abort : Name → Nat → Factories F LF S L SE LE

structure Attempt (F LF S L SE LE LC SC IE PE : Type u) where
  fileRead : Except IE (List UInt8)
  parseServiceConfig : List UInt8 → Except PE (ServiceConfigMap LC SC)
  order : IterationOrder
  outcomes : Outcomes F LF S L SE LE

inductive ReloadResult (SE LE IE PE : Type u) where
  | readFailed (e : IE)
  | unchanged
  | parseFailed (e : PE)
  | prepareFailed (e : AnyError SE LE)
  | reloaded

structure StaticFileConfigManager (F LF S L LC SC : Type u) where
  onlineConfigContent : List UInt8
  onlineServices : ServiceConfigMap LC SC
  workers : List (Worker F S L)
  listenerFactoryProvider : LC → LF
  serverFactoryProvider : SC → F

/-- The match on which of the two key sets contain the key. -/
def patchFor (oldServices newServices : ServiceConfigMap LC SC) (key : Name) :
    Option (Patch LC SC) :=
  match decide (key ∈ oldServices), decide (key ∈ newServices) with
  | true, true => (newServices.lookup key).map fun newConfig => .update key newConfig.server
  | true, false => some (.delete key)
  | false, true =>
      (newServices.lookup key).map fun newConfig =>
        .insert key newConfig.listener newConfig.server
  | false, false => none

def allKeys (oldServices newServices : ServiceConfigMap LC SC) : List Name :=
  oldServices.keys ∪ newServices.keys

def diff (order : IterationOrder) (oldServices newServices : ServiceConfigMap LC SC) :
    Option (List (Patch LC SC)) :=
  (order.arrange (allKeys oldServices newServices)).mapM (patchFor oldServices newServices)

/-- The loop of `prepare` and of `commit`: dispatch the command of each patch
that has one, and return at the first group that reports an error. -/
def dispatchUntilError (env : Name → Nat → Factories F LF S L SE LE)
    (command : Patch LC SC → Option (ServiceCommand F LF)) :
    List (Patch LC SC) → List (Worker F S L) →
      List (Worker F S L) × Except (AnyError SE LE) Unit
  | [], workers => (workers, .ok ())
  | patch :: rest, workers =>
      match command patch with
      | none => dispatchUntilError env command rest workers
      | some cmd =>
          let (workers, results) := dispatchServiceCommand (env patch.key) cmd workers
          match resultGroupErr results with
          | .error e => (workers, .error e)
          | .ok () => dispatchUntilError env command rest workers

namespace StaticFileConfigManager
variable (mgr : StaticFileConfigManager F LF S L LC SC)

/-- `StaticFileConfigManager::new` once `threads` workers run. -/
def new (threads : Nat) (listenerFactoryProvider : LC → LF) (serverFactoryProvider : SC → F) :
    StaticFileConfigManager F LF S L LC SC :=
  { onlineConfigContent := [], onlineServices := ∅, workers := List.replicate threads .start,
    listenerFactoryProvider, serverFactoryProvider }

def prepareCommand : Patch LC SC → Option (ServiceCommand F LF)
  | .insert key _ serverConfig | .update key serverConfig =>
      some (.precommit key (mgr.serverFactoryProvider serverConfig))
  | .delete _ => none

def commitCommand : Patch LC SC → Option (ServiceCommand F LF)
  | .insert key listenerConfig _ =>
      some (.commit key (mgr.listenerFactoryProvider listenerConfig))
  | .update key _ => some (.update key)
  | .delete key => some (.remove key)

def prepare (outcomes : Outcomes F LF S L SE LE) (patches : List (Patch LC SC)) :
    List (Worker F S L) → List (Worker F S L) × Except (AnyError SE LE) Unit :=
  dispatchUntilError outcomes.prepare mgr.prepareCommand patches

def commit (outcomes : Outcomes F LF S L SE LE) (patches : List (Patch LC SC)) :
    List (Worker F S L) → List (Worker F S L) × Except (AnyError SE LE) Unit :=
  dispatchUntilError outcomes.commit mgr.commitCommand patches

/-- Errors are discarded: some workers may never have been asked to precommit. -/
def abort (outcomes : Outcomes F LF S L SE LE) :
    List (Patch LC SC) → List (Worker F S L) → List (Worker F S L)
  | [], workers => workers
  | .insert key _ _ :: rest, workers | .update key _ :: rest, workers =>
      abort outcomes rest (dispatchServiceCommand (outcomes.abort key) (.abort key) workers).1
  | .delete _ :: rest, workers => abort outcomes rest workers

def reloadServices (order : IterationOrder) (outcomes : Outcomes F LF S L SE LE)
    (newServices : ServiceConfigMap LC SC) :
    Option (List (Worker F S L) × Except (AnyError SE LE) Unit) :=
  match diff order mgr.onlineServices newServices with
  | none => none
  | some patches =>
      match mgr.prepare outcomes patches mgr.workers with
      | (workers, .ok ()) =>
          match mgr.commit outcomes patches workers with
          | (workers, .ok ()) => some (workers, .ok ())
          | (_, .error _) => none  -- `expect("config reload failed at commit stage")`
      | (workers, .error e) => some (abort outcomes patches workers, .error e)

def reloadFile (attempt : Attempt F LF S L SE LE LC SC IE PE) :
    Option (StaticFileConfigManager F LF S L LC SC × ReloadResult SE LE IE PE) :=
  match attempt.fileRead with
  | .error e => some (mgr, .readFailed e)
  | .ok latestContent =>
      if mgr.onlineConfigContent = latestContent then some (mgr, .unchanged)
      else
        match attempt.parseServiceConfig latestContent with
        | .error e => some (mgr, .parseFailed e)
        | .ok newServices =>
            match mgr.reloadServices attempt.order attempt.outcomes newServices with
            | none => none
            | some (workers, .error e) => some ({ mgr with workers }, .prepareFailed e)
            | some (workers, .ok ()) =>
                some ({ mgr with
                  workers, onlineConfigContent := latestContent, onlineServices := newServices },
                  .reloaded)

end StaticFileConfigManager

/-- Labels of a run of attempts that all returned. -/
def reloadStep (mgr : StaticFileConfigManager F LF S L LC SC)
    (performed : Attempt F LF S L SE LE LC SC IE PE × ReloadResult SE LE IE PE)
    (mgr' : StaticFileConfigManager F LF S L LC SC) : Prop :=
  mgr.reloadFile performed.1 = some (mgr', performed.2)

end Monolake.Config
