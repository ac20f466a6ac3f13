import Mathlib.Data.List.Nodup
import Mathlib.Logic.Function.Basic
import Monolake.Foundation.Latest

/-!
Two-stage deployment as such: under every name at most one deployed and at most
one staged item, changed by five kinds of event. The same is said a second time
about the history of events alone, in terms of the latest event of a kind, and
both readings are shown to agree on every history. Names and items are
arbitrary; nothing here depends on how an executor stores them.
-/
namespace Monolake.Orchestrator

universe u v
variable {κ : Type u} [DecidableEq κ] {α : Type v}

open Foundation

inductive Change (κ : Type u) (α : Type v) where
  | stage (name : κ) (item : α)
  | promote (name : κ)
  | install (name : κ) (item : α)
  | discard (name : κ)
  | withdraw (name : κ)

def Change.name : Change κ α → κ
  | .stage n _ | .promote n | .install n _ | .discard n | .withdraw n => n

/-- The item an event brings into the system. -/
def Change.introduces : Change κ α → Option α
  | .stage _ item | .install _ item => some item
  | _ => none

@[ext] structure Deployment (κ : Type u) (α : Type v) where
  deployed : κ → Option α
  staged : κ → Option α

namespace Deployment

def empty : Deployment κ α := { deployed := fun _ => none, staged := fun _ => none }

def apply (d : Deployment κ α) : Change κ α → Deployment κ α
  | .stage n item => { d with staged := Function.update d.staged n (some item) }
  | .promote n =>
      { deployed := Function.update d.deployed n (d.staged n)
        staged := Function.update d.staged n none }
  | .install n item =>
      { deployed := Function.update d.deployed n (some item)
        staged := Function.update d.staged n none }
  | .discard n => { d with staged := Function.update d.staged n none }
  | .withdraw n =>
      { deployed := Function.update d.deployed n none
        staged := Function.update d.staged n none }

def after (cs : List (Change κ α)) : Deployment κ α := cs.foldl apply empty

@[simp] theorem after_nil : after ([] : List (Change κ α)) = empty := rfl

@[simp] theorem after_snoc (cs : List (Change κ α)) (c : Change κ α) :
    after (cs ++ [c]) = (after cs).apply c := by
  simp [after]

/-- An event under one name leaves every other name alone. -/
theorem apply_of_ne (d : Deployment κ α) (c : Change κ α) {n : κ} (h : n ≠ c.name) :
    (d.apply c).deployed n = d.deployed n ∧ (d.apply c).staged n = d.staged n := by
  cases c <;> simp_all [apply, Change.name]

/-- The item an event deploys in a given state. -/
def installs (d : Deployment κ α) : Change κ α → Option α
  | .promote n => d.staged n
  | .install _ item => some item
  | _ => none

end Deployment

/-! The history reading. -/

/-- What an event says about the staged item of `n`, if anything. -/
def stagingOf (n : κ) : Change κ α → Option (Option α)
  | .stage m item => if m = n then some (some item) else none
  | .promote m | .install m _ | .discard m | .withdraw m => if m = n then some none else none

/-- The item of the latest staging of `n` that was not since promoted,
superseded, discarded or withdrawn. -/
def stagedIn (cs : List (Change κ α)) (n : κ) : Option α :=
  (latest (stagingOf n) cs).bind (·.2)

/-- The events that decide what is deployed under `n`. -/
def deploymentOf (n : κ) : Change κ α → Option (Change κ α)
  | .promote m => if m = n then some (.promote m) else none
  | .install m item => if m = n then some (.install m item) else none
  | .withdraw m => if m = n then some (.withdraw m) else none
  | _ => none

/-- The item an event deploys after a given history. -/
def installedBy (past : List (Change κ α)) : Change κ α → Option α
  | .promote n => stagedIn past n
  | .install _ item => some item
  | _ => none

/-- The item deployed by the latest promotion or installation of `n` that no
withdrawal of `n` follows. -/
def installedIn (cs : List (Change κ α)) (n : κ) : Option α :=
  (latest (deploymentOf n) cs).bind fun (past, c) => installedBy past c

theorem stagedIn_snoc (cs : List (Change κ α)) (c : Change κ α) (n : κ) :
    stagedIn (cs ++ [c]) n = (stagingOf n c).getD (stagedIn cs n) := by
  unfold stagedIn
  rw [latest_snoc]
  cases stagingOf n c <;> rfl

theorem installedIn_snoc (cs : List (Change κ α)) (c : Change κ α) (n : κ) :
    installedIn (cs ++ [c]) n =
      match deploymentOf n c with
      | some c => installedBy cs c
      | none => installedIn cs n := by
  unfold installedIn
  rw [latest_snoc]
  cases deploymentOf n c <;> rfl

theorem Deployment.apply_staged (d : Deployment κ α) (c : Change κ α) (n : κ) :
    (d.apply c).staged n = (stagingOf n c).getD (d.staged n) := by
  cases c <;> simp only [apply, stagingOf, Function.update_apply] <;> grind

theorem Deployment.apply_deployed (d : Deployment κ α) (c : Change κ α) (n : κ) :
    (d.apply c).deployed n =
      match deploymentOf n c with
      | some c => d.installs c
      | none => d.deployed n := by
  cases c with
  | stage m item | discard m => rfl
  | promote m | install m item | withdraw m =>
      by_cases h : m = n
      · subst h; simp [apply, deploymentOf, installs]
      · simp [apply, deploymentOf, h, Function.update_of_ne (Ne.symm h)]

/-- State and history agree on what is staged. -/
theorem after_staged (cs : List (Change κ α)) (n : κ) :
    (Deployment.after cs).staged n = stagedIn cs n := by
  induction cs using List.reverseRecOn with
  | nil => rfl
  | append_singleton cs c ih =>
      rw [Deployment.after_snoc, Deployment.apply_staged, stagedIn_snoc, ih]

theorem after_installs (cs : List (Change κ α)) (c : Change κ α) :
    (Deployment.after cs).installs c = installedBy cs c := by
  cases c with
  | promote n => exact after_staged cs n
  | stage _ _ | install _ _ | discard _ | withdraw _ => rfl

/-- State and history agree on what is deployed. -/
theorem after_deployed (cs : List (Change κ α)) (n : κ) :
    (Deployment.after cs).deployed n = installedIn cs n := by
  induction cs using List.reverseRecOn with
  | nil => rfl
  | append_singleton cs c ih =>
      rw [Deployment.after_snoc, Deployment.apply_deployed, installedIn_snoc, ih]
      cases deploymentOf n c with
      | none => rfl
      | some c => exact after_installs cs c

/-! Every introduced item is deployed at most once. -/

/-- The items deployed along a history that starts in the given state. -/
def installations (d : Deployment κ α) : List (Change κ α) → List α
  | [] => []
  | c :: cs => (d.installs c).toList ++ installations (d.apply c) cs

theorem installations_snoc (cs : List (Change κ α)) (c : Change κ α) (d : Deployment κ α) :
    installations d (cs ++ [c]) =
      installations d cs ++ ((cs.foldl Deployment.apply d).installs c).toList := by
  induction cs generalizing d with
  | nil => simp [installations]
  | cons x xs ih => simp [installations, ih]

section Once
variable {ι : Type*} (ident : α → ι)

def identsIntroduced (cs : List (Change κ α)) : List ι :=
  (cs.filterMap Change.introduces).map ident

def identsInstalled (cs : List (Change κ α)) : List ι :=
  (installations .empty cs).map ident

/-- Deployed items were introduced and are spent; staged ones are still waiting. -/
structure Unspent (cs : List (Change κ α)) : Prop where
  nodup : (identsInstalled ident cs).Nodup
  introduced : ∀ x ∈ identsInstalled ident cs, x ∈ identsIntroduced ident cs
  staged_introduced : ∀ n a, (Deployment.after cs).staged n = some a →
    ident a ∈ identsIntroduced ident cs
  staged_waiting : ∀ n a, (Deployment.after cs).staged n = some a →
    ident a ∉ identsInstalled ident cs
  staged_distinct : ∀ n m a b, (Deployment.after cs).staged n = some a →
    (Deployment.after cs).staged m = some b → ident a = ident b → n = m

variable {ident} {cs : List (Change κ α)} {c : Change κ α}

theorem identsInstalled_snoc (cs : List (Change κ α)) (c : Change κ α) :
    identsInstalled ident (cs ++ [c]) =
      identsInstalled ident cs ++ (((Deployment.after cs).installs c).map ident).toList := by
  rw [identsInstalled, installations_snoc, List.map_append, Option.toList_map]
  rfl

omit [DecidableEq κ] in
theorem identsIntroduced_snoc (cs : List (Change κ α)) (c : Change κ α) :
    identsIntroduced ident (cs ++ [c]) =
      identsIntroduced ident cs ++ (c.introduces.map ident).toList := by
  cases h : c.introduces <;> simp [identsIntroduced, h]

theorem Unspent.empty : Unspent ident ([] : List (Change κ α)) := by
  constructor <;> simp [identsInstalled, installations, Deployment.empty]

/-- A staged item was staged by this very event, or before it under another name. -/
theorem staged_snoc {n : κ} {a : α} (ha : (Deployment.after (cs ++ [c])).staged n = some a) :
    c = .stage n a ∨ n ≠ c.name ∧ (Deployment.after cs).staged n = some a := by
  rw [Deployment.after_snoc, Deployment.apply_staged] at ha
  cases c <;> simp only [stagingOf, Change.name] at ha ⊢ <;> grind

/-- What an event deploys was introduced, and was not deployed before. -/
theorem Unspent.installs (h : Unspent ident cs)
    (fresh : ∀ a, c.introduces = some a → ident a ∉ identsIntroduced ident cs)
    {a : α} (ha : (Deployment.after cs).installs c = some a) :
    ident a ∉ identsInstalled ident cs ∧ ident a ∈ identsIntroduced ident (cs ++ [c]) := by
  rw [identsIntroduced_snoc]
  cases c with
  | promote n =>
      exact ⟨h.staged_waiting n a ha, List.mem_append_left _ (h.staged_introduced n a ha)⟩
  | install n item =>
      obtain rfl : item = a := by simpa [Deployment.installs] using ha
      exact ⟨fun hmem => fresh item rfl (h.introduced _ hmem), by simp [Change.introduces]⟩
  | stage _ _ | discard _ | withdraw _ => simp [Deployment.installs] at ha

/-- A staged item that stays staged is not the one the event deploys. -/
theorem Unspent.installs_ne (h : Unspent ident cs)
    (fresh : ∀ a, c.introduces = some a → ident a ∉ identsIntroduced ident cs)
    {n : κ} {a b : α} (hn : n ≠ c.name) (ha : (Deployment.after cs).staged n = some a)
    (hb : (Deployment.after cs).installs c = some b) : ident a ≠ ident b := by
  intro same
  cases c with
  | promote m => exact hn (h.staged_distinct n m a b ha hb same)
  | install m item =>
      obtain rfl : item = b := by simpa [Deployment.installs] using hb
      exact fresh item rfl (same ▸ h.staged_introduced n a ha)
  | stage _ _ | discard _ | withdraw _ => simp [Deployment.installs] at hb

theorem Unspent.snoc (h : Unspent ident cs)
    (fresh : ∀ a, c.introduces = some a → ident a ∉ identsIntroduced ident cs) :
    Unspent ident (cs ++ [c]) where
  nodup := by
    rw [identsInstalled_snoc]
    cases hi : (Deployment.after cs).installs c with
    | none => simpa using h.nodup
    | some a =>
        simp only [Option.map_some, Option.toList_some, List.nodup_append, List.mem_singleton]
        refine ⟨h.nodup, List.nodup_singleton _, ?_⟩
        rintro x hx y rfl rfl
        exact (h.installs fresh hi).1 hx
  introduced := by
    intro x hx
    rw [identsInstalled_snoc] at hx
    rcases List.mem_append.mp hx with hx | hx
    · rw [identsIntroduced_snoc]
      exact List.mem_append_left _ (h.introduced x hx)
    · obtain ⟨a, ha, rfl⟩ := Option.map_eq_some_iff.mp (Option.mem_toList.mp hx)
      exact (h.installs fresh ha).2
  staged_introduced := by
    intro n a ha
    rw [identsIntroduced_snoc]
    rcases staged_snoc ha with rfl | ⟨-, ha⟩
    · simp [Change.introduces]
    · exact List.mem_append_left _ (h.staged_introduced n a ha)
  staged_waiting := by
    intro n a ha hx
    rw [identsInstalled_snoc] at hx
    rcases staged_snoc ha with rfl | ⟨hn, ha⟩
    · refine fresh a rfl (h.introduced _ ?_)
      simpa [Deployment.installs] using hx
    · rcases List.mem_append.mp hx with hx | hx
      · exact h.staged_waiting n a ha hx
      · obtain ⟨b, hb, same⟩ := Option.map_eq_some_iff.mp (Option.mem_toList.mp hx)
        exact h.installs_ne fresh hn ha hb same.symm
  staged_distinct := by
    intro n m a b ha hb same
    rcases staged_snoc ha with hc | ⟨-, ha'⟩ <;> rcases staged_snoc hb with hk | ⟨-, hb'⟩
    · exact (Change.stage.inj (hc.symm.trans hk)).1
    · exact absurd (same ▸ h.staged_introduced m b hb') (fresh a (by rw [hc]; rfl))
    · exact absurd (same ▸ h.staged_introduced n a ha') (fresh b (by rw [hk]; rfl))
    · exact h.staged_distinct n m a b ha' hb' same

/-- If the introduced items are pairwise different, none is deployed twice. -/
theorem installed_at_most_once (distinct : (identsIntroduced ident cs).Nodup) :
    Unspent ident cs := by
  induction cs using List.reverseRecOn with
  | nil => exact .empty
  | append_singleton cs c ih =>
      rw [identsIntroduced_snoc] at distinct
      refine (ih (List.Nodup.of_append_left distinct)).snoc ?_
      intro a ha hmem
      refine (List.nodup_append.mp distinct).2.2 _ hmem _ ?_ rfl
      simp [ha]

end Once

end Monolake.Orchestrator
