import Mathlib.Data.List.DropRight
import Monolake.Http.ConnectionReuse

/-!
The options in the `Connection` headers of a request. The standard goes by all
options of all lines; the code compares the first line as a whole.
-/
namespace Monolake.Http

def isOws (c : Char) : Bool := c = ' ' || c = '\t'

/-- A comma-separated list with optional white space. -/
def lineOptions (line : String) : List String :=
  (line.toList.splitOn ',').map fun part =>
    String.ofList ((part.dropWhile isOws).rdropWhile isOws)

def connectionOptions (headers : HeaderMap) : List String :=
  (headers.getAll "connection").flatMap lineOptions

/-- The option is there, in any letter case. -/
def HasOption (headers : HeaderMap) (name : String) : Prop :=
  ∃ option ∈ connectionOptions headers, eqIgnoreAsciiCase option name = true

/-- The standard rule. -/
def Persistent (headers : HeaderMap) : Version → Prop
  | .http10 => HasOption headers "keep-alive" ∧ ¬ HasOption headers "close"
  | .http11 => ¬ HasOption headers "close"
  | _ => False

/-- The first line is this option and nothing else. -/
def FirstLineIs (headers : HeaderMap) (name : String) : Prop :=
  ∃ line, headers.get "connection" = some line ∧ eqIgnoreAsciiCase line name = true

/-- A line that is an option without separators has no other option. -/
theorem lineOptions_single {line name : String} (h : eqIgnoreAsciiCase line name = true)
    (plain : (name.toList.map Char.toLower).all (fun c => c ≠ ',' && !isOws c) = true) :
    lineOptions line = [line] := by
  have same : line.toList.map Char.toLower = name.toList.map Char.toLower := by
    simpa [eqIgnoreAsciiCase] using h
  have chars : ∀ c ∈ line.toList, c ≠ ',' ∧ isOws c = false := by
    intro c hc
    have lower := List.all_eq_true.mp plain c.toLower (same ▸ List.mem_map_of_mem hc)
    rw [Bool.and_eq_true, decide_eq_true_eq, Bool.not_eq_true'] at lower
    constructor
    · rintro rfl
      exact lower.1 rfl
    · -- letter case makes no white space
      cases ows : isOws c with
      | false => rfl
      | true =>
          rw [isOws, Bool.or_eq_true, decide_eq_true_eq, decide_eq_true_eq] at ows
          rcases ows with rfl | rfl <;> exact absurd lower.2 (by decide)
  have whole : line.toList.splitOn ',' = [line.toList] :=
    List.splitOn_eq_singleton fun hc => (chars ',' hc).1 rfl
  have first : line.toList.dropWhile isOws = line.toList :=
    List.dropWhile_eq_self_iff.mpr fun hl => by
      rw [(chars _ (List.getElem_mem hl)).2]
      exact Bool.false_ne_true
  have last : line.toList.rdropWhile isOws = line.toList :=
    List.rdropWhile_eq_self_iff.mpr fun hl => by
      rw [(chars _ (List.getLast_mem hl)).2]
      exact Bool.false_ne_true
  rw [lineOptions, whole, List.map_singleton, first, last, String.ofList_toList]

section
variable (headers : HeaderMap)

theorem get_eq_head? (name : String) : headers.get name = (headers.getAll name).head? := by
  rw [HeaderMap.get, HeaderMap.getAll, List.head?_map, List.head?_filter]

theorem FirstLineIs.hasOption {headers : HeaderMap} {name : String}
    (h : FirstLineIs headers name)
    (plain : (name.toList.map Char.toLower).all (fun c => c ≠ ',' && !isOws c) = true) :
    HasOption headers name := by
  obtain ⟨line, hline, same⟩ := h
  rw [get_eq_head?] at hline
  refine ⟨line, List.mem_flatMap.mpr ⟨line, List.mem_of_head? hline, ?_⟩, same⟩
  rw [lineOptions_single same plain]
  exact List.mem_singleton_self line

theorem keepalive_http11_iff :
    isConnKeepalive headers .http11 = true ↔ ¬ FirstLineIs headers "close" := by
  cases hline : headers.get "connection" with
  | none => simp [isConnKeepalive, FirstLineIs, hline]
  | some line => simp [isConnKeepalive, FirstLineIs, hline]

theorem keepalive_http10_iff :
    isConnKeepalive headers .http10 = true ↔ FirstLineIs headers "keep-alive" := by
  have lower : "Keep-Alive".toList.map Char.toLower = "keep-alive".toList.map Char.toLower := by
    decide
  cases hline : headers.get "connection" with
  | none => simp [isConnKeepalive, FirstLineIs, hline]
  | some line =>
      simp only [isConnKeepalive, FirstLineIs, hline, eqIgnoreAsciiCase, lower, Option.some.injEq,
        exists_eq_left']

/-- An HTTP/1.1 request is treated as the standard says if and only if no option is
`close` or the first line is just that; an HTTP/1.0 request, if and only if no
option is `close` next to a first line that is just `keep-alive`, and the first line
is just that where `keep-alive` is an option and `close` is none. -/
theorem keepalive_standard_iff :
    ((isConnKeepalive headers .http11 = true ↔ Persistent headers .http11) ↔
      (HasOption headers "close" → FirstLineIs headers "close")) ∧
    ((isConnKeepalive headers .http10 = true ↔ Persistent headers .http10) ↔
      (FirstLineIs headers "keep-alive" → ¬ HasOption headers "close") ∧
      (HasOption headers "keep-alive" → ¬ HasOption headers "close" →
        FirstLineIs headers "keep-alive")) := by
  have close : FirstLineIs headers "close" → HasOption headers "close" :=
    fun h => h.hasOption (by decide)
  have keepAlive : FirstLineIs headers "keep-alive" → HasOption headers "keep-alive" :=
    fun h => h.hasOption (by decide)
  rw [keepalive_http11_iff, keepalive_http10_iff, Persistent, Persistent]
  constructor
  · rw [not_iff_not]
    exact ⟨fun same => same.mpr, fun only => ⟨close, only⟩⟩
  · constructor
    · intro same
      exact ⟨fun first => (same.mp first).2, fun option quiet => same.mpr ⟨option, quiet⟩⟩
    · rintro ⟨quiet, first⟩
      exact ⟨fun h => ⟨keepAlive h, quiet h⟩, fun h => first h.1 h.2⟩

end

/-- `close` as one of two options, and `keep-alive` in the second line. -/
theorem option_lists_missed :
    ¬ (isConnKeepalive [("connection", "close, TE")] .http11 = true ↔
      Persistent [("connection", "close, TE")] .http11) ∧
    ¬ (isConnKeepalive [("connection", "TE"), ("connection", "keep-alive")] .http10 = true ↔
      Persistent [("connection", "TE"), ("connection", "keep-alive")] .http10) := by
  constructor
  · intro same
    exact same.mp (by decide) ⟨"close", by decide, by decide⟩
  · intro same
    have kept := same.mpr ⟨⟨"keep-alive", by decide, by decide⟩, by
      rintro ⟨option, hoption, close⟩
      have options : connectionOptions [("connection", "TE"), ("connection", "keep-alive")] =
          ["TE", "keep-alive"] := by decide
      rw [options] at hoption
      simp only [List.mem_cons, List.not_mem_nil, or_false] at hoption
      rcases hoption with rfl | rfl <;> exact absurd close (by decide)⟩
    exact absurd kept (by decide)

end Monolake.Http
