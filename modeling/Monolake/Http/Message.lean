import Mathlib.Data.List.Basic

/-!
What an HTTP exchange carries, as far as the core service looks at it: heads with
their header maps, and bodies that yield chunks until they end or fail.
-/
namespace Monolake.Http

universe u

abbrev Bytes := List UInt8

inductive Version where
  | http09
  | http10
  | http11
  | http2
  | http3
  deriving DecidableEq

/-- Names are in lower case; a name can have several values. -/
abbrev HeaderMap := List (String × String)

namespace HeaderMap

def remove (headers : HeaderMap) (name : String) : HeaderMap :=
  headers.filter (·.1 ≠ name)

def insert (headers : HeaderMap) (name value : String) : HeaderMap :=
  headers.remove name ++ [(name, value)]

/-- The first value of a name. -/
def get (headers : HeaderMap) (name : String) : Option String :=
  (headers.find? (·.1 = name)).map (·.2)

def getAll (headers : HeaderMap) (name : String) : List String :=
  (headers.filter (·.1 = name)).map (·.2)

section
variable (headers : HeaderMap) (name value : String)

@[simp] theorem getAll_remove_self : (headers.remove name).getAll name = [] := by
  simp [getAll, remove, List.filter_filter]

@[simp] theorem getAll_remove_of_ne {other : String} (h : other ≠ name) :
    (headers.remove name).getAll other = headers.getAll other := by
  rw [getAll, remove, List.filter_filter]
  refine congrArg _ (List.filter_congr fun header _ => ?_)
  by_cases hname : header.1 = other
  · simp [hname, h]
  · simp [hname]

@[simp] theorem getAll_insert_self : (headers.insert name value).getAll name = [value] := by
  have removed := getAll_remove_self headers name
  rw [getAll] at removed
  rw [insert, getAll, List.filter_append, List.map_append, removed]
  simp

@[simp] theorem getAll_insert_of_ne {other : String} (h : other ≠ name) :
    (headers.insert name value).getAll other = headers.getAll other := by
  have kept := getAll_remove_of_ne headers name h
  rw [getAll] at kept
  rw [insert, getAll, List.filter_append, List.map_append, kept]
  simp [h.symm]

/-- Removing a name that has no value changes nothing. -/
theorem remove_of_absent {headers : HeaderMap} {name : String}
    (absent : headers.getAll name = []) : headers.remove name = headers := by
  rw [getAll, List.map_eq_nil_iff, List.filter_eq_nil_iff] at absent
  rw [remove, List.filter_eq_self]
  intro header hmem
  simpa using absent header hmem

end

end HeaderMap

inductive StreamHint where
  | none
  | fixed
  | stream
  deriving DecidableEq

/-- The chunks that a body still yields, and the error that follows them, if any. -/
structure HttpBody (E : Type u) where
  streamHint : StreamHint
  chunks : List Bytes
  failure : Option E

namespace HttpBody
variable {E : Type u}

def nextData (body : HttpBody E) : HttpBody E × Option (Except E Bytes) :=
  match body.chunks, body.failure with
  | data :: chunks, _ => ({ body with chunks }, some (.ok data))
  | [], some err => ({ body with failure := none }, some (.error err))
  | [], none => (body, none)

/-- `fixed_body(None)` -/
def fixedNone : HttpBody E := { streamHint := .none, chunks := [], failure := none }

end HttpBody

/-- `response::Parts` -/
structure Parts where
  status : Nat
  version : Version
  headers : HeaderMap
  deriving DecidableEq

structure Response (E : Type u) where
  parts : Parts
  body : HttpBody E

structure PathAndQuery where
  path : String
  query : Option String
  deriving DecidableEq

structure Uri where
  scheme : Option String
  authority : Option String
  pathAndQuery : Option PathAndQuery
  deriving DecidableEq

structure Request (B : Type u) where
  method : String
  uri : Uri
  version : Version
  headers : HeaderMap
  body : B

def badRequest : Nat := 400

def internalServerError : Nat := 500

def generateResponse {E : Type u} (statusCode : Nat) (close : Bool) : Response E :=
  let headers : HeaderMap := if close then HeaderMap.insert [] "connection" "close" else []
  { parts := {
      status := statusCode
      version := .http11
      headers := headers.insert "content-length" "0" }
    body := .fixedNone }

end Monolake.Http
