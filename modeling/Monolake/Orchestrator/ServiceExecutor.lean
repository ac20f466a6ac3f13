import Mathlib.Logic.Function.Basic
import Monolake.Foundation.Runs

/-!
The service executor of one worker thread: its sites, the slot cells and stop
channels they share with the spawned serve loops, and the six commands.

Async factories answer once per command, through `Factories`. A state is what
the thread holds; `sites` is the source's own field, the others are the heap
cells, oneshot channels and tasks it reaches. A command keeps whatever it
changed before it failed, so that nothing about failed commands is assumed.
-/
namespace Monolake.Orchestrator

universe u

abbrev Name := String

/-- A service together with the factory it came from. `serial` counts the
successful factory calls of its executor and so names the instance. -/
structure BuiltService (F S : Type u) where
  serial : Nat
  factory : F
  value : S
  deriving DecidableEq

inductive ServiceCommandError where
  | siteLookupFailed
  | serviceNotStaged
  | serviceNotDeployed
  deriving DecidableEq

/-- `slot` addresses the shared slot cell, `stop` the oneshot channel whose
receiver this container keeps alive. -/
structure ServiceSlotContainer where
  slot : Nat
  stop : Nat
  deriving DecidableEq

structure ServiceDeploymentContainer (F S : Type u) where
  committedService : Option ServiceSlotContainer
  precommittedService : Option (BuiltService F S)
  deriving DecidableEq

def ServiceDeploymentContainer.new {F S : Type u} : ServiceDeploymentContainer F S :=
  { committedService := none, precommittedService := none }

/-- A spawned `serve` task: the listener and slot it was given and the channel
whose sender it holds. The source's task does not know `spawnedFor`, the name in
the command that spawned it. -/
structure ServeLoop (L : Type u) where
  spawnedFor : Name
  listener : L
  handler : Nat
  stop : Nat
  running : Bool
  deriving DecidableEq

/-- A connection task: the loop that accepted it and the service it was handed. -/
structure Connection (F S : Type u) where
  acceptedBy : Nat
  service : BuiltService F S
  deriving DecidableEq

structure ServiceExecutor (F S L : Type u) where
  sites : Name → Option (ServiceDeploymentContainer F S)
  slots : List (BuiltService F S)
  /-- One entry per oneshot channel: whether its receiver is still alive. -/
  channels : List Bool
  loops : List (ServeLoop L)
  connections : List (Connection F S)
  builds : Nat

namespace ServiceExecutor
variable {F S L : Type u}

def new : ServiceExecutor F S L :=
  { sites := fun _ => none, slots := [], channels := [], loops := [],
    connections := [], builds := 0 }

def putSite (ex : ServiceExecutor F S L) (name : Name)
    (sh : Option (ServiceDeploymentContainer F S)) : ServiceExecutor F S L :=
  { ex with sites := Function.update ex.sites name sh }

/-- Dropping a slot container drops the receiver of its stop channel. -/
def dropSlotContainer (ex : ServiceExecutor F S L) :
    Option ServiceSlotContainer → ServiceExecutor F S L
  | none => ex
  | some hdr => { ex with channels := ex.channels.set hdr.stop false }

/-- The container stored as `committed_service` of a site. -/
def committedAt (ex : ServiceExecutor F S L) (name : Name) : Option ServiceSlotContainer :=
  (ex.sites name).bind (·.committedService)

/-- The service stored as `precommitted_service` of a site. -/
def stagedSvc (ex : ServiceExecutor F S L) (name : Name) : Option (BuiltService F S) :=
  (ex.sites name).bind (·.precommittedService)

def slotGetSvc (ex : ServiceExecutor F S L) (slot : Nat) : Option (BuiltService F S) :=
  ex.slots[slot]?

def getSvc (ex : ServiceExecutor F S L) (name : Name) : Option (BuiltService F S) :=
  (ex.committedAt name).bind fun hdr => ex.slotGetSvc hdr.slot

def slotUpdateSvc (ex : ServiceExecutor F S L) (slot : Nat) (svc : BuiltService F S) :
    ServiceExecutor F S L :=
  { ex with slots := ex.slots.set slot svc }

def precommitSvc (ex : ServiceExecutor F S L) (name : Name) (svc : BuiltService F S) :
    ServiceExecutor F S L :=
  let sh := (ex.sites name).getD .new
  ex.putSite name (some { sh with precommittedService := some svc })

def updateWithPrecommittedSvc (ex : ServiceExecutor F S L) (name : Name) :
    ServiceExecutor F S L × Except ServiceCommandError Unit :=
  match ex.sites name with
  | none => (ex, .error .siteLookupFailed)
  | some sh =>
      match sh.committedService with
      | none => (ex, .error .serviceNotDeployed)
      | some hdr =>
          let taken := ex.putSite name (some { sh with precommittedService := none })
          match sh.precommittedService with
          | none => (taken, .error .serviceNotStaged)
          | some precomSvc => (taken.slotUpdateSvc hdr.slot precomSvc, .ok ())

/-- `ServiceSlotContainer::create`: a fresh slot cell and a fresh stop channel. -/
def createSlotContainer (ex : ServiceExecutor F S L) (handler : BuiltService F S) :
    ServiceExecutor F S L × ServiceSlotContainer :=
  ({ ex with slots := ex.slots ++ [handler], channels := ex.channels ++ [true] },
    { slot := ex.slots.length, stop := ex.channels.length })

/-- On success the result is the new slot and the channel whose sender goes to
the serve loop. -/
def deployStagedService (ex : ServiceExecutor F S L) (name : Name) :
    ServiceExecutor F S L × Except ServiceCommandError (Nat × Nat) :=
  match ex.sites name with
  | none => (ex, .error .siteLookupFailed)
  | some sh =>
      let taken := ex.putSite name (some { sh with precommittedService := none })
      match sh.precommittedService with
      | none => (taken, .error .serviceNotStaged)
      | some precomSvc =>
          let (created, newSite) := taken.createSlotContainer precomSvc
          -- the assignment to `committed_service` drops the previous container
          let stored := (created.putSite name
            (some { committedService := some newSite, precommittedService := none }))
          (stored.dropSlotContainer sh.committedService, .ok (newSite.slot, newSite.stop))

def remove (ex : ServiceExecutor F S L) (name : Name) :
    ServiceExecutor F S L × Except ServiceCommandError Unit :=
  match ex.sites name with
  | none => (ex, .error .siteLookupFailed)
  | some sh => ((ex.putSite name none).dropSlotContainer sh.committedService, .ok ())

def abort (ex : ServiceExecutor F S L) (name : Name) :
    ServiceExecutor F S L × Except ServiceCommandError Unit :=
  match ex.sites name with
  | none => (ex, .error .siteLookupFailed)
  | some sh => (ex.putSite name (some { sh with precommittedService := none }), .ok ())

/-- `monoio::spawn(serve(listener, hdr, stop))`. -/
def spawnServe (ex : ServiceExecutor F S L) (name : Name) (listener : L) (hdr stop : Nat) :
    ServiceExecutor F S L :=
  { ex with
    loops := ex.loops ++
      [{ spawnedFor := name, listener, handler := hdr, stop, running := true }] }

end ServiceExecutor

inductive ServiceCommand (F LF : Type u) where
  | precommit (name : Name) (factory : F)
  | update (name : Name)
  | commit (name : Name) (listenerFactory : LF)
  | prepareAndCommit (name : Name) (factory : F) (listenerFactory : LF)
  | abort (name : Name)
  | remove (name : Name)

def ServiceCommand.name {F LF : Type u} : ServiceCommand F LF → Name
  | .precommit name _ | .update name | .commit name _
  | .prepareAndCommit name _ _ | .abort name | .remove name => name

inductive CommandError (SE LE : Type u) where
  | buildService (e : SE)
  | buildListener (e : LE)
  | siteNotExist
  | preparationNotExist
  | previousHandlerNotExist

def ServiceCommandError.toCommandError {SE LE : Type u} :
    ServiceCommandError → CommandError SE LE
  | .siteLookupFailed => .siteNotExist
  | .serviceNotStaged => .preparationNotExist
  | .serviceNotDeployed => .previousHandlerNotExist

/-- How the factories of one command answer. `make` is `make_via_ref` without a
service to take over from. -/
structure Factories (F LF S L SE LE : Type u) where
  makeViaRef : F → Option S → Except SE S
  makeListener : LF → Except LE L

/-- A call of a service factory: the service it was shown and the one it built. -/
structure FactoryCall (F S : Type u) where
  old : Option (BuiltService F S)
  made : Option (BuiltService F S)

structure Execution (F S L SE LE : Type u) where
  executor : ServiceExecutor F S L
  result : Except (CommandError SE LE) Unit
  call : Option (FactoryCall F S)

section Execute
variable {F LF S L SE LE : Type u}

/-- Take note of a successful factory call and name the instance it built. -/
def ServiceExecutor.built (ex : ServiceExecutor F S L) (factory : F) (value : S) :
    ServiceExecutor F S L × BuiltService F S :=
  ({ ex with builds := ex.builds + 1 }, { serial := ex.builds, factory, value })

/-- The common end of `Commit` and `PrepareAndCommit`. -/
def deployAndServe (ex : ServiceExecutor F S L) (name : Name) (listener : L) :
    ServiceExecutor F S L × Except (CommandError SE LE) Unit :=
  match ex.deployStagedService name with
  | (ex, .error e) => (ex, .error e.toCommandError)
  | (ex, .ok (hdr, stop)) => (ex.spawnServe name listener hdr stop, .ok ())

def execute (env : Factories F LF S L SE LE) (ex : ServiceExecutor F S L) :
    ServiceCommand F LF → Execution F S L SE LE
  | .precommit name factory =>
      let currentSvc := ex.getSvc name
      match env.makeViaRef factory (currentSvc.map (·.value)) with
      | .error e => ⟨ex, .error (.buildService e), some ⟨currentSvc, none⟩⟩
      | .ok value =>
          let (ex, svc) := ex.built factory value
          ⟨ex.precommitSvc name svc, .ok (), some ⟨currentSvc, some svc⟩⟩
  | .update name =>
      let (ex, result) := ex.updateWithPrecommittedSvc name
      ⟨ex, result.mapError (·.toCommandError), none⟩
  | .commit name listenerFactory =>
      match env.makeListener listenerFactory with
      | .error e => ⟨ex, .error (.buildListener e), none⟩
      | .ok listener =>
          let (ex, result) := deployAndServe ex name listener
          ⟨ex, result, none⟩
  | .prepareAndCommit name factory listenerFactory =>
      match env.makeViaRef factory none with
      | .error e => ⟨ex, .error (.buildService e), some ⟨none, none⟩⟩
      | .ok value =>
          let (ex, svc) := ex.built factory value
          match env.makeListener listenerFactory with
          | .error e => ⟨ex, .error (.buildListener e), some ⟨none, some svc⟩⟩
          | .ok listener =>
              let (ex, result) := deployAndServe (ex.precommitSvc name svc) name listener
              ⟨ex, result, some ⟨none, some svc⟩⟩
  | .abort name =>
      let (ex, result) := ex.abort name
      ⟨ex, result.mapError (·.toCommandError), none⟩
  | .remove name =>
      let (ex, result) := ex.remove name
      ⟨ex, result.mapError (·.toCommandError), none⟩

end Execute

end Monolake.Orchestrator
