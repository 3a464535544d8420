import Evalorch.Resolution.Traversal

/-!
# Following a path

`followInto` says what a token leads to: a key applied to an array leads to its values in the
objects that have it. `stepInto` asks each object for the key with `get` and so takes an object
without the key for one where it is null. A path and its initial parts resolve to what they lead
to exactly when every object of an array that a key is applied to has the key.
-/

namespace Evalorch

open Python

/-- The value of a key in an item that is an object with the key. -/
def itemLookup (token : String) : Json → Option Json
  | .dict fields => fields.lookup token
  | _ => none

/-- What following a token other than `*` leads to. -/
def followInto (b : Builtins) (token : String) : Json → Except Exn (Option Json)
  | .list items =>
    if Python.isDigit token then stepInto b token (.list items)
    else
      let mapped := items.filterMap (itemLookup token)
      .ok (if mapped.isEmpty then none else some (.list mapped))
  | current => stepInto b token current

/-- A key that is applied to an array is present in each object of it. -/
def keyPresent (token : String) : Json → Prop
  | .list items =>
      Python.isDigit token = true
        ∨ ∀ fields : Dict, Json.dict fields ∈ items → (fields.lookup token).isSome
  | _ => True

/-- What is reached by following the tokens of a path. -/
def followed (b : Builtins) (payload : Dict) (tokens : List String) : Json × Option ErrorCode :=
  match walkStart b payload tokens with
  | some (start, remaining) => reach (followInto b) remaining start
  | none => unwalked b payload tokens

/-- Tokens that resolve without an error resolve to what is reached by following them. -/
def Faithful (b : Builtins) (payload : Dict) (path : String) (tokens : List String) : Prop :=
  ∀ r, resolveTokens b payload path tokens = .ok r → r.code = none →
    followed b payload tokens = (r.value, none)

/-- The tokens that the walk of a path applies, with the documents. -/
def pathApplications (b : Builtins) (payload : Dict) (tokens : List String) :
    List (String × Json) :=
  match walkStart b payload tokens with
  | some (start, remaining) => applications (stepInto b) remaining start
  | none => []

/-- Every key of a path that is applied to an array is present in each object of it. -/
def KeysPresent (b : Builtins) (payload : Dict) (tokens : List String) : Prop :=
  ∀ a ∈ pathApplications b payload tokens, keyPresent a.1 a.2

/-- No token of a path that is applied to an array looks like an index and is none. -/
def NoBadIndex (b : Builtins) (payload : Dict) (tokens : List String) : Prop :=
  ∀ a ∈ pathApplications b payload tokens, ¬ badIndex a.1 a.2

/-! ### One step -/

/-- A key that is present leads where it is followed to. -/
theorem stepInto_eq_followInto {b : Builtins} {token : String} {current : Json}
    (h : keyPresent token current) :
  stepInto b token current = followInto b token current
  := by
  cases current with
  | list items =>
    simp only [followInto]
    split
    case isTrue => rfl
    case isFalse hdigit =>
      have hpresent := h.resolve_left hdigit
      have hmapped : items.filterMap (itemGet token) = items.filterMap (itemLookup token) := by
        apply List.filterMap_congr
        intro item hitem
        cases item with
        | dict fields =>
          obtain ⟨value, hvalue⟩ := Option.isSome_iff_exists.mp (hpresent fields hitem)
          simp [itemGet, itemLookup, Dict.get, hvalue]
        | _ => rfl
      simp only [stepInto, hdigit, hmapped]
      rfl
  | _ => rfl

/-- Following a key leads to no more values than asking for it. -/
theorem length_filterMap_itemLookup_le (token : String) (items : List Json) :
  (items.filterMap (itemLookup token)).length ≤ (items.filterMap (itemGet token)).length
  := by
  induction items with
  | nil => apply Nat.le_refl
  | cons item items ih =>
    cases item with
    | dict fields =>
      cases hlookup : fields.lookup token <;>
        simp only [List.filterMap_cons, itemGet, itemLookup, hlookup, List.length_cons] <;> omega
    | _ => exact ih

/-- A key that is absent from an object leads to fewer values. -/
theorem length_filterMap_itemLookup_lt {token : String} {items : List Json} {fields : Dict}
    (hmem : Json.dict fields ∈ items) (habsent : fields.lookup token = none) :
  (items.filterMap (itemLookup token)).length < (items.filterMap (itemGet token)).length
  := by
  obtain ⟨before, after, rfl⟩ := List.append_of_mem hmem
  have hbefore := length_filterMap_itemLookup_le token before
  have hafter := length_filterMap_itemLookup_le token after
  simp only [List.filterMap_append, List.filterMap_cons, itemGet, itemLookup, habsent,
    List.length_append, List.length_cons]
  omega

/-- A key that is absent from an object leads to values all the same, but not to those it is
followed to. -/
theorem stepInto_ne_followInto {b : Builtins} {token : String} {current : Json}
    (h : ¬ keyPresent token current) :
  ∃ value, stepInto b token current = .ok (some value)
    ∧ ∀ next, followInto b token current = .ok next → next ≠ some value
  := by
  cases current with
  | list items =>
    obtain ⟨hdigit, hpresent⟩ := not_or.mp h
    obtain ⟨fields, hpresent⟩ := not_forall.mp hpresent
    obtain ⟨hmem, habsent⟩ := Classical.not_imp.mp hpresent
    have hlt := length_filterMap_itemLookup_lt hmem (Option.not_isSome_iff_eq_none.mp habsent)
    have hne : items.filterMap (itemGet token) ≠ [] := by
      intro hnil
      rw [hnil] at hlt
      exact absurd hlt (Nat.not_lt_zero _)
    use .list (items.filterMap (itemGet token))
    refine ⟨by simp [stepInto, hdigit, hne], ?_⟩
    rintro next hnext rfl
    simp only [followInto, hdigit] at hnext
    split at hnext
    case isTrue hfalse => cases hfalse
    case isFalse =>
      rw [Except.ok.injEq] at hnext
      split at hnext
      case isTrue => cases hnext
      case isFalse =>
        rw [Option.some.injEq, Json.list.injEq] at hnext
        rw [hnext] at hlt
        exact absurd hlt (lt_irrefl _)
  | _ => exact absurd trivial h

/-! ### Walks -/

/-- Walks whose steps agree wherever they are applied reach the same. -/
theorem reach_congr {into into' : String → Json → Except Exn (Option Json)}
    {tokens : List String} {current : Json}
    (h : ∀ a ∈ applications into tokens current, into a.1 a.2 = into' a.1 a.2) :
  reach into tokens current = reach into' tokens current
  := by
  induction tokens generalizing current with
  | nil => rfl
  | cons token remaining ih =>
    by_cases htoken : token = "*"
    · subst htoken
      cases current with
      | list items =>
        have hitems : items.map (reach into remaining) = items.map (reach into' remaining) := by
          apply List.map_congr_left
          intro item hitem
          apply ih
          intro a ha
          apply h
          simp only [applications, if_true, List.mem_flatMap]
          exact ⟨item, hitem, ha⟩
        simp [reach, hitems]
      | _ => rfl
    · simp only [applications, htoken, if_false, List.forall_mem_cons] at h
      obtain ⟨hstep, hrest⟩ := h
      rw [reach.eq_def, reach.eq_def into']
      simp only [htoken, if_false, ← hstep]
      cases hnext : into token current with
      | error e => rfl
      | ok next =>
        cases next with
        | none => rfl
        | some next =>
          apply ih
          simpa [hnext] using hrest

/-- An initial part of the tokens applies them to the same documents. -/
theorem mem_applications_of_dropLast {into : String → Json → Except Exn (Option Json)}
    {tokens : List String} {current : Json} {a : String × Json}
    (h : a ∈ applications into tokens.dropLast current) :
  a ∈ applications into tokens current
  := by
  induction tokens generalizing current with
  | nil => exact h
  | cons token remaining ih =>
    rcases eq_or_ne remaining [] with rfl | hne
    · simp [applications] at h
    · rw [List.dropLast_cons_of_ne_nil hne] at h
      by_cases htoken : token = "*"
      · subst htoken
        cases current with
        | list items =>
          simp only [applications, if_true, List.mem_flatMap] at h ⊢
          obtain ⟨item, hitem, ha⟩ := h
          exact ⟨item, hitem, ih ha⟩
        | _ => simp [applications] at h
      · simp only [applications, htoken, if_false, List.mem_cons] at h ⊢
        refine h.imp_right ?_
        cases into token current with
        | error e => exact id
        | ok next =>
          cases next with
          | none => exact id
          | some next => exact ih

/-! ### The items of an array -/

/-- The values of the results without a code. -/
def reachedValues (results : List (Json × Option ErrorCode)) : List Json :=
  (results.filter (·.2.isNone)).map Prod.fst

theorem reachedValues_cons_none (value : Json) (results : List (Json × Option ErrorCode)) :
  reachedValues ((value, none) :: results) = value :: reachedValues results
  := rfl

theorem reachedValues_cons_some (value : Json) (code : ErrorCode)
    (results : List (Json × Option ErrorCode)) :
  reachedValues ((value, some code) :: results) = reachedValues results
  := rfl

/-- At an item two walks agree, or the first reaches a value and the second does not reach it. -/
def AgreeOrMiss (x y : Json × Option ErrorCode) : Prop :=
  x = y ∨ x.2 = none ∧ y ≠ x

/-- Where the second of two walks misses values, it reaches no more of them. -/
theorem length_reachedValues_le {α : Type} {f g : α → Json × Option ErrorCode} {items : List α}
    (h : ∀ item ∈ items, AgreeOrMiss (f item) (g item)) :
  (reachedValues (items.map g)).length ≤ (reachedValues (items.map f)).length
  := by
  induction items with
  | nil => apply Nat.le_refl
  | cons item items ih =>
    obtain ⟨hitem, hitems⟩ := List.forall_mem_cons.mp h
    have hle := ih hitems
    rw [List.map_cons, List.map_cons]
    rcases hitem with heq | ⟨hnone, -⟩
    · rw [heq]
      obtain ⟨value, code⟩ := g item
      cases code
      · simpa [reachedValues_cons_none] using hle
      · simpa [reachedValues_cons_some] using hle
    · rcases hf : f item with ⟨value, code⟩
      rw [hf] at hnone
      obtain rfl : code = none := hnone
      rw [reachedValues_cons_none, List.length_cons]
      obtain ⟨value', code'⟩ := g item
      cases code'
      · simpa [reachedValues_cons_none] using hle
      · rw [reachedValues_cons_some]
        omega

/-- Where the second of two walks misses a value, it does not reach the same list. -/
theorem reachedValues_ne {α : Type} {f g : α → Json × Option ErrorCode} {items : List α}
    (h : ∀ item ∈ items, AgreeOrMiss (f item) (g item)) {item : α} (hmem : item ∈ items)
    (hmiss : f item ≠ g item) :
  reachedValues (items.map f) ≠ reachedValues (items.map g)
  := by
  induction items with
  | nil => simp at hmem
  | cons first items ih =>
    obtain ⟨hfirst, hitems⟩ := List.forall_mem_cons.mp h
    rw [List.map_cons, List.map_cons]
    by_cases heq : f first = g first
    · have hrest : item ∈ items := by
        rcases List.mem_cons.mp hmem with rfl | hmem
        · exact absurd heq hmiss
        · exact hmem
      have hne := ih hitems hrest
      rw [heq]
      obtain ⟨value, code⟩ := g first
      cases code
      · simpa [reachedValues_cons_none] using hne
      · simpa [reachedValues_cons_some] using hne
    · obtain ⟨hnone, -⟩ := hfirst.resolve_left heq
      have hle := length_reachedValues_le hitems
      rcases hf : f first with ⟨value, code⟩
      rcases hg : g first with ⟨value', code'⟩
      rw [hf] at hnone heq
      obtain rfl : code = none := hnone
      rw [reachedValues_cons_none]
      cases code' with
      | none =>
        rw [reachedValues_cons_none]
        intro hlist
        apply heq
        rw [hg, (List.cons.inj hlist).1]
      | some code' =>
        rw [reachedValues_cons_some]
        intro hlist
        have hlength := congrArg List.length hlist
        rw [List.length_cons] at hlength
        omega

/-- Where the second of two walks misses a value at an item, the first reaches a list, which the
second does not reach. -/
theorem collect_ne {f g : Json → Json × Option ErrorCode} {items : List Json}
    (h : ∀ item ∈ items, AgreeOrMiss (f item) (g item)) {item : Json} (hmem : item ∈ items)
    (hmiss : f item ≠ g item) :
  (collect items.isEmpty (items.map f)).2 = none
    ∧ collect items.isEmpty (items.map g) ≠ collect items.isEmpty (items.map f)
  := by
  have hne := reachedValues_ne h hmem hmiss
  have hlist : reachedValues (items.map f) ≠ [] := by
    intro hnil
    have hle := length_reachedValues_le h
    rw [hnil, List.length_nil, Nat.le_zero, List.length_eq_zero_iff] at hle
    exact hne (hnil.trans hle.symm)
  have hf : collect items.isEmpty (items.map f) = (.list (reachedValues (items.map f)), none) := by
    change (if (reachedValues (items.map f)).isEmpty && !items.isEmpty then _ else _) = _
    rw [if_neg (by simp [hlist])]
    rfl
  rw [hf]
  refine ⟨rfl, ?_⟩
  change (if (reachedValues (items.map g)).isEmpty && !items.isEmpty then _ else _) ≠ _
  split
  · simp
  · intro heq
    exact hne (Json.list.inj (Prod.mk.inj heq).1).symm

/-! ### Walks that miss a key -/

/-- A walk whose last token is the first to miss a key reaches a value that is not reached by
following it. -/
theorem reach_ne_of_last_missing {b : Builtins} {tokens : List String} {current : Json}
    (hbefore : ∀ a ∈ applications (stepInto b) tokens.dropLast current, keyPresent a.1 a.2)
    (hmissing : ∃ a ∈ applications (stepInto b) tokens current, ¬ keyPresent a.1 a.2) :
  (reach (stepInto b) tokens current).2 = none
    ∧ reach (followInto b) tokens current ≠ reach (stepInto b) tokens current
  := by
  induction tokens generalizing current with
  | nil => simp [applications] at hmissing
  | cons token remaining ih =>
    obtain ⟨a, ha, hmissing⟩ := hmissing
    by_cases htoken : token = "*"
    · subst htoken
      cases current with
      | list items =>
        simp only [applications, if_true, List.mem_flatMap] at ha
        obtain ⟨item, hitem, ha⟩ := ha
        have hne : remaining ≠ [] := by
          rintro rfl
          simp [applications] at ha
        rw [List.dropLast_cons_of_ne_nil hne] at hbefore
        simp only [applications, if_true, List.mem_flatMap] at hbefore
        have hbefore' : ∀ item ∈ items,
            ∀ a ∈ applications (stepInto b) remaining.dropLast item, keyPresent a.1 a.2 :=
          fun item hitem a ha => hbefore a ⟨item, hitem, ha⟩
        -- an item either misses no key, or misses one by its last token
        have hitems : ∀ item ∈ items, AgreeOrMiss (reach (stepInto b) remaining item)
            (reach (followInto b) remaining item) := by
          intro item hitem
          by_cases hall : ∀ a ∈ applications (stepInto b) remaining item, keyPresent a.1 a.2
          · left
            apply reach_congr
            intro a ha
            apply stepInto_eq_followInto (hall a ha)
          · right
            obtain ⟨a, hrest⟩ := not_forall.mp hall
            obtain ⟨ha, hmissing⟩ := Classical.not_imp.mp hrest
            apply ih (hbefore' item hitem) ⟨a, ha, hmissing⟩
        have hmiss := (ih (hbefore' item hitem) ⟨a, ha, hmissing⟩).2
        have hcollect := collect_ne hitems hitem hmiss.symm
        simpa [reach, hne] using hcollect
      | _ => simp [applications] at ha
    · simp only [applications, htoken, if_false, List.mem_cons] at ha
      rw [reach.eq_def, reach.eq_def (followInto b)]
      simp only [htoken, if_false]
      by_cases hpresent : keyPresent token current
      · rw [← stepInto_eq_followInto hpresent]
        have ha := ha.resolve_left fun heq => hmissing (by rwa [heq])
        cases hnext : stepInto b token current with
        | error e => simp [hnext] at ha
        | ok next =>
          cases next with
          | none => simp [hnext] at ha
          | some next =>
            simp only [hnext] at ha
            apply ih _ ⟨a, ha, hmissing⟩
            intro a' ha'
            have hne : remaining ≠ [] := by
              rintro rfl
              simp [applications] at ha
            apply hbefore
            rw [List.dropLast_cons_of_ne_nil hne]
            simp [applications, htoken, hnext, ha']
      · -- this token misses a key, so it is the last one
        have hnil : remaining = [] := by
          by_contra hne
          rw [List.dropLast_cons_of_ne_nil hne] at hbefore
          apply hpresent
          exact hbefore (token, current) (by simp [applications, htoken])
        subst hnil
        obtain ⟨value, hvalue, hfollow⟩ := stepInto_ne_followInto hpresent
        rw [hvalue]
        refine ⟨rfl, ?_⟩
        cases hnext : followInto b token current with
        | error e => simp [reach]
        | ok next =>
          cases next with
          | none => simp [reach]
          | some next =>
            intro heq
            apply hfollow _ hnext
            exact congrArg some (Prod.mk.inj heq).1

/-! ### Paths -/

/-- One more token is one more token to walk, unless the path walked no document before; then
there is at most one. -/
theorem walkStart_concat (b : Builtins) (payload : Dict) (tokens : List String) (last : String) :
  (∃ start remaining, walkStart b payload tokens = some (start, remaining)
      ∧ walkStart b payload (tokens ++ [last]) = some (start, remaining ++ [last]))
    ∨ walkStart b payload tokens = none
      ∧ ∀ start remaining, walkStart b payload (tokens ++ [last]) = some (start, remaining) →
          remaining.dropLast = []
  := by
  cases tokens with
  | nil =>
    right
    refine ⟨rfl, ?_⟩
    intro start remaining h
    simp only [walkStart, List.nil_append] at h
    split at h
    case isTrue => simp_all
    split at h
    case isTrue => cases h
    split at h
    case isTrue => split at h <;> simp_all
    case isFalse =>
      obtain ⟨span, -, hspan⟩ := Option.map_eq_some_iff.mp h
      simp_all
  | cons head rest =>
    by_cases hpayload : head = "payload"
    · left
      simp [walkStart, hpayload]
    by_cases hspans : head = "spans"
    · cases rest with
      | nil =>
        right
        refine ⟨by simp [walkStart, hspans], ?_⟩
        intro start remaining h
        simp only [walkStart, List.cons_append, List.nil_append, hspans] at h
        rw [if_neg (by decide), if_pos trivial] at h
        split at h
        case isTrue =>
          cases h
          rfl
        case isFalse =>
          obtain ⟨span, -, hspan⟩ := Option.map_eq_some_iff.mp h
          cases hspan
          rfl
      | cons first tail =>
        simp only [walkStart, List.cons_append, hspans, if_true]
        by_cases hindex : (first = "*" || Python.isDigit first) = true
        · simp only [hindex, if_true]
          exact .inl ⟨_, _, rfl, rfl⟩
        · simp only [hindex]
          cases (findSpan b (extractSpans payload) first).span with
          | none => simp
          | some span => exact .inl ⟨_, _, rfl, rfl⟩
    · simp only [walkStart, List.cons_append, hpayload, hspans, if_false]
      split
      case isTrue =>
        cases payload.get head with
        | null => simp
        | _ => exact .inl ⟨_, _, rfl, rfl⟩
      case isFalse =>
        cases (findSpan b (extractSpans payload) head).span with
        | none => simp
        | some span => exact .inl ⟨_, _, rfl, rfl⟩

/-- One more token leaves the applications of the others as they are. -/
theorem pathApplications_concat_subset {b : Builtins} {payload : Dict} {tokens : List String}
    {last : String} {a : String × Json} (h : a ∈ pathApplications b payload tokens) :
  a ∈ pathApplications b payload (tokens ++ [last])
  := by
  unfold pathApplications at h ⊢
  rcases walkStart_concat b payload tokens last with ⟨start, remaining, hstart, hlast⟩ | ⟨hnone, -⟩
  · rw [hstart] at h
    rw [hlast]
    apply mem_applications_of_dropLast
    simpa using h
  · simp [hnone] at h

/-- A path resolves, as far as no token is a bad index, to what its walk reaches. -/
theorem resolveTokens_eq_reach {b : Builtins} {payload : Dict} {tokens : List String}
    (h : NoBadIndex b payload tokens) (path : String) :
  (resolveTokens b payload path tokens).map Resolution.answer
    = .ok (match walkStart b payload tokens with
      | some (start, remaining) => reach (stepInto b) remaining start
      | none => unwalked b payload tokens)
  := by
  rw [resolveTokens_answer]
  unfold NoBadIndex pathApplications at h
  cases hstart : walkStart b payload tokens with
  | none => rfl
  | some walk =>
    simp only [hstart] at h ⊢
    apply walk_eq_reach
    intro a ha
    rw [returns_stepInto_iff]
    exact h a ha

/-- Tokens that resolve have no bad index. -/
theorem noBadIndex_of_resolveTokens {b : Builtins} {payload : Dict} {path : String}
    {tokens : List String} (h : Returns (resolveTokens b payload path tokens)) :
  NoBadIndex b payload tokens
  := by
  rw [← @returns_map _ _ _ _ Resolution.answer, resolveTokens_answer] at h
  unfold NoBadIndex pathApplications
  cases hstart : walkStart b payload tokens with
  | none => simp
  | some walk =>
    simp only [hstart, returns_map] at h ⊢
    intro a ha
    rw [← returns_stepInto_iff]
    exact returns_of_returns_walk h a ha

/-- Where keys are present, tokens resolve to what is reached by following them. -/
theorem faithful_of_keysPresent {b : Builtins} {payload : Dict} {path : String}
    {tokens : List String}
    (h : NoBadIndex b payload tokens → KeysPresent b payload tokens) :
  Faithful b payload path tokens
  := by
  intro r hr hcode
  have hindex := noBadIndex_of_resolveTokens ⟨r, hr⟩
  have hanswer := resolveTokens_eq_reach hindex path
  have hpresent := h hindex
  rw [hr] at hanswer
  unfold KeysPresent pathApplications at hpresent
  unfold followed
  cases hstart : walkStart b payload tokens with
  | none =>
    simp only [hstart, Except.map, Except.ok.injEq] at hanswer ⊢
    rw [← hanswer, Resolution.answer, hcode]
  | some walk =>
    simp only [hstart, Except.map, Except.ok.injEq] at hanswer hpresent ⊢
    rw [← reach_congr fun a ha => stepInto_eq_followInto (hpresent a ha), ← hanswer,
      Resolution.answer, hcode]

/-- Where one more token is the first to miss a key, the tokens do not resolve to what is
reached by following them. -/
theorem not_faithful_of_missing {b : Builtins} {payload : Dict} {tokens : List String}
    {last : String} (path : String) (hbefore : KeysPresent b payload tokens)
    (hindex : NoBadIndex b payload (tokens ++ [last]))
    (hmissing : ¬ KeysPresent b payload (tokens ++ [last])) :
  ¬ Faithful b payload path (tokens ++ [last])
  := by
  intro hfaithful
  have hanswer := resolveTokens_eq_reach hindex path
  unfold KeysPresent pathApplications at hbefore hmissing
  cases hstart : walkStart b payload (tokens ++ [last]) with
  | none => simp [hstart] at hmissing
  | some walk =>
    obtain ⟨start, remaining⟩ := walk
    simp only [hstart] at hmissing hanswer
    have hdropLast :
        ∀ a ∈ applications (stepInto b) remaining.dropLast start, keyPresent a.1 a.2 := by
      rcases walkStart_concat b payload tokens last with ⟨start', remaining', h, h'⟩ | ⟨-, h⟩
      · rw [hstart] at h'
        cases h'
        simpa [h] using hbefore
      · simp [h start remaining hstart, applications]
    have hmissing' : ∃ a ∈ applications (stepInto b) remaining start, ¬ keyPresent a.1 a.2 := by
      simpa using hmissing
    obtain ⟨hnone, hne⟩ := reach_ne_of_last_missing hdropLast hmissing'
    cases hr : resolveTokens b payload path (tokens ++ [last]) with
    | error e => simp [hr, Except.map] at hanswer
    | ok r =>
      simp only [hr, Except.map, Except.ok.injEq] at hanswer
      have hcode : r.code = none := (congrArg Prod.snd hanswer).trans hnone
      have hfollowed := hfaithful r hr hcode
      unfold followed at hfollowed
      simp only [hstart] at hfollowed
      apply hne
      rw [hfollowed, ← hanswer, Resolution.answer, hcode]

/-- A path and its initial parts resolve to what is reached by following them exactly when, as
far as no token is a bad index, the keys that are applied to arrays are present. -/
theorem resolution_faithful_iff (b : Builtins) (payload : Dict) (path : String) :
  (∀ n, Faithful b payload path ((parsePath path).take n))
    ↔ ∀ n, NoBadIndex b payload ((parsePath path).take n) →
        KeysPresent b payload ((parsePath path).take n)
  := by
  constructor
  · intro h n
    induction n with
    | zero => simp [KeysPresent, pathApplications, walkStart]
    | succ n ih =>
      intro hindex
      rcases lt_or_ge n (parsePath path).length with hlt | hge
      · have hconcat : (parsePath path).take (n + 1)
            = (parsePath path).take n ++ [(parsePath path)[n]] :=
          (List.take_concat_get' _ n hlt).symm
        by_contra hmissing
        rw [hconcat] at hindex hmissing
        apply not_faithful_of_missing path (ih ?_) hindex hmissing
        · rw [← hconcat]
          apply h
        · intro a ha
          apply hindex a (pathApplications_concat_subset ha)
      · rw [List.take_of_length_le hge] at ih
        rw [List.take_of_length_le (by omega)] at hindex ⊢
        apply ih hindex
  · intro h n
    apply faithful_of_keysPresent (h n)

namespace Demo

/-- A payload whose correlation lists an item without a kind. -/
def sparse : Dict :=
  [("correlation", .dict [("items", .list [.dict [("id", .int 1)]])])]

end Demo

/-- No item has a kind, and the path resolves to a null without an error; with a wildcard it does
not resolve. -/
theorem absentKey_not_faithful :
  (resolvePath Demo.builtins Demo.sparse "correlation.items.kind").map Resolution.answer
      = .ok (.list [.null], none)
    ∧ (resolvePath Demo.builtins Demo.sparse "correlation.items.*.kind").map Resolution.answer
      = .ok (.null, some .missingPath)
    ∧ ¬ Faithful Demo.builtins Demo.sparse "correlation.items.kind"
        (parsePath "correlation.items.kind")
  := by
  refine ⟨rfl, rfl, ?_⟩
  intro h
  have hresolved : followed Demo.builtins Demo.sparse (parsePath "correlation.items.kind")
      = (.list [.null], none) :=
    h ⟨.list [.null], none, _⟩ rfl rfl
  have hfollowed : followed Demo.builtins Demo.sparse (parsePath "correlation.items.kind")
      = (.null, some .missingPath) := rfl
  rw [hfollowed] at hresolved
  cases hresolved

end Evalorch
