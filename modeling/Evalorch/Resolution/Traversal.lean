import Evalorch.Python.Raising
import Evalorch.Services.ContextResolver

/-!
# Walking tokens

A walk applies each token other than `*` to a document, or under `*` to several;
`applications` lists these pairs. The walk returns exactly when every application does, and
then what it returns is `reach`, which knows no exceptions and no locations. A path walks the
document that its first tokens select (`walkStart`).
-/

namespace Evalorch

open Python

variable {into : String → Json → Except Exn (Option Json)}

/-! ### Applications -/

/-- The tokens other than `*` that a walk applies, each with the document it is applied to. -/
def applications (into : String → Json → Except Exn (Option Json)) :
    List String → Json → List (String × Json)
  | [], _ => []
  | token :: remaining, current =>
    if token = "*" then
      match current with
      | .list items => items.flatMap (applications into remaining)
      | _ => []
    else
      (token, current) ::
        match into token current with
        | .ok (some next) => applications into remaining next
        | _ => []

/-- The values of the items of an array that a walk reaches, or the code when there are items
but none is reached. -/
def collect (noItems : Bool) (results : List (Json × Option ErrorCode)) :
    Json × Option ErrorCode :=
  let mapped := (results.filter (·.2.isNone)).map Prod.fst
  if mapped.isEmpty && !noItems then (.null, some .missingPath) else (.list mapped, none)

/-- What a walk reaches, when a step that raises leads nowhere. -/
def reach (into : String → Json → Except Exn (Option Json)) :
    List String → Json → Json × Option ErrorCode
  | [], current => (current, none)
  | token :: remaining, current =>
    if token = "*" then
      match current with
      | .list items =>
        if remaining.isEmpty then (current, none)
        else collect items.isEmpty (items.map (reach into remaining))
      | _ => (.null, some .invalidType)
    else
      match into token current with
      | .ok (some next) => reach into remaining next
      | _ => (.null, some .missingPath)

/-- The value and the code of a traversal. -/
def Traversal.answer (t : Traversal) : Json × Option ErrorCode :=
  (t.value, t.code)

/-- A wildcard before more tokens, as the map it is. -/
theorem walk_wildcard {remaining : List String} (hne : remaining ≠ []) (items : List Json)
    (walked : List String) :
  (walk into ("*" :: remaining) (.list items) walked).map Traversal.answer
    = ((items.mapM fun item => (walk into remaining item (walked ++ ["*"])).map
        Traversal.answer).map (collect items.isEmpty))
  := by
  rw [← map_mapM, walk]
  simp only [if_true, List.isEmpty_iff, hne, if_false]
  cases items.mapM fun item => walk into remaining item (walked ++ ["*"]) with
  | error e => rfl
  | ok results =>
    have hmapped : resolvedValues results
        = ((results.map Traversal.answer).filter (·.2.isNone)).map Prod.fst := by
      rw [List.filter_map, List.map_map]
      rfl
    simp only [bind, Except.bind, Except.map, collect, ← hmapped]
    cases (resolvedValues results).isEmpty && !items.isEmpty <;> rfl

/-- A step by a token other than `*`. -/
theorem walk_step {token : String} (h : token ≠ "*") (remaining : List String) (current : Json)
    (walked : List String) :
  (walk into (token :: remaining) current walked).map Traversal.answer
    = into token current >>= fun next =>
        match next with
        | some next => (walk into remaining next
            (walked ++ [stepLabel token current])).map Traversal.answer
        | none => .ok (.null, some .missingPath)
  := by
  rw [walk.eq_def]
  simp only [h, if_false]
  cases into token current with
  | error e => rfl
  | ok next => cases next <;> rfl

/-- The value and the code of a walk do not depend on how it is recorded. -/
theorem walk_answer (tokens : List String) (current : Json) (walked walked' : List String) :
  (walk into tokens current walked).map Traversal.answer
    = (walk into tokens current walked').map Traversal.answer
  := by
  induction tokens generalizing current walked walked' with
  | nil => rfl
  | cons token remaining ih =>
    by_cases htoken : token = "*"
    · subst htoken
      cases current with
      | list items =>
        rcases eq_or_ne remaining [] with rfl | hne
        · rfl
        · rw [walk_wildcard hne, walk_wildcard hne]
          congr 2
          funext item
          apply ih
      | _ => rfl
    · rw [walk_step htoken, walk_step htoken]
      congr 1
      funext next
      cases next with
      | none => rfl
      | some next => apply ih

/-- A walk each of whose applications returns, returns what it reaches. -/
theorem walk_eq_reach {tokens : List String} {current : Json}
    (h : ∀ a ∈ applications into tokens current, Returns (into a.1 a.2)) (walked : List String) :
  (walk into tokens current walked).map Traversal.answer = .ok (reach into tokens current)
  := by
  induction tokens generalizing current walked with
  | nil => rfl
  | cons token remaining ih =>
    by_cases htoken : token = "*"
    · subst htoken
      cases current with
      | list items =>
        rcases eq_or_ne remaining [] with rfl | hne
        · rfl
        · have hitems : ∀ item ∈ items,
              (walk into remaining item (walked ++ ["*"])).map Traversal.answer
                = .ok (reach into remaining item) := by
            intro item hitem
            apply ih
            intro a ha
            apply h
            simp only [applications, if_true, List.mem_flatMap]
            exact ⟨item, hitem, ha⟩
          rw [walk_wildcard hne, mapM_eq_ok_map hitems]
          simp [Except.map, reach, hne]
      | _ => rfl
    · simp only [applications, htoken, if_false, List.forall_mem_cons] at h
      obtain ⟨⟨next, hnext⟩, hrest⟩ := h
      rw [walk_step htoken, hnext, reach.eq_def]
      simp only [htoken, if_false, hnext]
      cases next with
      | none => rfl
      | some next =>
        apply ih
        simpa [hnext] using hrest

/-- A walk that returns has only applications that return. -/
theorem returns_of_returns_walk {tokens : List String} {current : Json} {walked : List String}
    (h : Returns (walk into tokens current walked)) :
  ∀ a ∈ applications into tokens current, Returns (into a.1 a.2)
  := by
  rw [← @returns_map _ _ _ _ Traversal.answer] at h
  induction tokens generalizing current walked with
  | nil => simp [applications]
  | cons token remaining ih =>
    by_cases htoken : token = "*"
    · subst htoken
      cases current with
      | list items =>
        rcases eq_or_ne remaining [] with rfl | hne
        · simp [applications]
        · rw [walk_wildcard hne, returns_map, returns_mapM] at h
          simp only [applications, if_true, List.mem_flatMap]
          rintro a ⟨item, hitem, ha⟩
          apply ih (h item hitem) a ha
      | _ => simp [applications]
    · rw [walk_step htoken, returns_bind] at h
      obtain ⟨next, hnext, h⟩ := h
      simp only [applications, htoken, if_false, List.forall_mem_cons]
      refine ⟨⟨next, hnext⟩, ?_⟩
      cases next with
      | none => simp [hnext]
      | some next =>
        rw [hnext]
        apply ih h

/-- A token that looks like an index, applied to an array, but is none. -/
def badIndex (token : String) : Json → Prop
  | .list _ => Python.isDigit token = true ∧ Python.int? token = none
  | _ => False

/-- A step raises only at a token that looks like an index and is none. -/
theorem returns_stepInto_iff {b : Builtins} {token : String} {current : Json} :
  Returns (stepInto b token current) ↔ ¬ badIndex token current
  := by
  cases current with
  | list items =>
    simp only [stepInto, badIndex, Builtins.intOfText]
    cases hdigit : Python.isDigit token
    · simp
    · cases hint : Python.int? token <;> simp [bind, Except.bind]
  | _ => simp [stepInto, badIndex]

/-! ### Paths -/

/-- The document that a path walks and the tokens that walk it, when its first tokens select
one. -/
def walkStart (b : Builtins) (payload : Dict) : List String → Option (Json × List String)
  | [] => none
  | head :: rest =>
    if head = "payload" then some (.dict payload, rest)
    else if head = "spans" then
      match rest with
      | [] => none
      | first :: tail =>
        if first = "*" || Python.isDigit first then
          some (.list ((extractSpans payload).map .dict), rest)
        else (findSpan b (extractSpans payload) first).span.map fun span => (.dict span, tail)
    else if head ∈ reservedSections then
      match payload.get head with
      | .null => none
      | value => some (value, rest)
    else (findSpan b (extractSpans payload) head).span.map fun span => (.dict span, rest)

/-- The value and the code of a resolution. -/
def Resolution.answer (r : Resolution) : Json × Option ErrorCode :=
  (r.value, r.code)

/-- The value and the code of a path that walks no document. -/
def unwalked (b : Builtins) (payload : Dict) : List String → Json × Option ErrorCode
  | [] => (.null, some .unsupportedMapping)
  | head :: rest =>
    if head = "spans" then
      match rest with
      | [] => (.list ((extractSpans payload).map .dict), none)
      | first :: _ =>
        (.null, some ((findSpan b (extractSpans payload) first).error.getD .missingSpan))
    else if head ∈ reservedSections then (.null, some .missingPath)
    else (.null, some ((findSpan b (extractSpans payload) head).error.getD .missingSpan))

/-- A span is found only without an error, and the only error is an ambiguous span. -/
theorem findSpan_error (b : Builtins) (spans : List Dict) (token : String) :
  (findSpan b spans token).error = none
    ∨ (findSpan b spans token).error = some .ambiguousSpan ∧ (findSpan b spans token).span = none
  := by
  unfold findSpan
  split
  · unfold findByField
    split <;> simp
  · split
    · simp
    · unfold findBare
      split
      · split <;> simp
      · simp
      · simp

/-- The part of a resolution that selects a span: an error, or a walk of the span. -/
theorem resolveInSpan_answer (b : Builtins) (spans : List Dict) (token : String)
    (tail : List String) (start : String) (detail : Dict) :
  (resolveInSpan b spans token tail start detail).map Resolution.answer
    = match (findSpan b spans token).span with
      | some span => (traverse b tail (.dict span) []).map Traversal.answer
      | none => .ok (.null, some ((findSpan b spans token).error.getD .missingSpan))
  := by
  unfold resolveInSpan
  rcases findSpan_error b spans token with herror | ⟨herror, hspan⟩
  · simp only [herror]
    cases (findSpan b spans token).span with
    | none => rfl
    | some span =>
      have hwalk := @walk_answer (stepInto b) tail (.dict span) [start] []
      simp only [traverse, ← hwalk]
      cases walk (stepInto b) tail (.dict span) [start] <;> rfl
  · simp [herror, hspan, Resolution.failed, Resolution.answer, Except.map]

/-- A path resolves to what its walk answers, or without a walk to what it selected. -/
theorem resolveTokens_answer (b : Builtins) (payload : Dict) (path : String)
    (tokens : List String) :
  (resolveTokens b payload path tokens).map Resolution.answer
    = match walkStart b payload tokens with
      | some (start, remaining) => (traverse b remaining start []).map Traversal.answer
      | none => .ok (unwalked b payload tokens)
  := by
  have hwalk : ∀ (detail : Dict) (tokens : List String) (start : Json) (walked : List String),
      ((traverse b tokens start walked).map (.ofTraversal detail)).map Resolution.answer
        = (traverse b tokens start []).map Traversal.answer := by
    intro detail tokens start walked
    rw [show (traverse b tokens start []).map Traversal.answer
        = (traverse b tokens start walked).map Traversal.answer from walk_answer _ _ _ _]
    cases traverse b tokens start walked <;> rfl
  cases tokens with
  | nil => rfl
  | cons head rest =>
    unfold resolveTokens walkStart
    simp only
    split
    case isTrue => apply hwalk
    split
    case isTrue hspans =>
      subst hspans
      cases rest with
      | nil => rfl
      | cons first tail =>
        simp only
        split
        case isTrue => apply hwalk
        rw [resolveInSpan_answer]
        cases (findSpan b (extractSpans payload) first).span <;> simp [unwalked]
    split
    case isTrue hpayload hspans hreserved =>
      cases payload.get head with
      | null => simp [unwalked, hspans, hreserved, Resolution.failed, Resolution.answer, Except.map]
      | _ => apply hwalk
    rw [resolveInSpan_answer]
    cases (findSpan b (extractSpans payload) head).span <;> simp [unwalked, *]

end Evalorch
