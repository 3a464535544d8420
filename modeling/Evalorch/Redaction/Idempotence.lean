import Evalorch.Redaction.Matches

/-!
# Redacting twice

A redacted text is not changed by another `redact_secrets`: each match in it is one that the
redaction has left there.
-/

open Python (Pattern isSpace)

namespace Evalorch

/-! ### Secrets -/

/-- A redacted text begins as before. -/
theorem head?_sub_secretRe (l : List Char) :
  (secretRe.sub redactedSecret l).head? = l.head?
  := by
  have hone : ∀ m rest, secretRe.find (m ++ rest) = some m.length →
      1 ≤ m.length ∧ m.take 1 <+: redactedSecret m := by
    rintro s rest hfind
    obtain ⟨key, m, rfl, hkey, -⟩ := secret_of_find hfind
    have hlen := hkey.two_le_length
    rw [redactedSecret_append hkey, List.length_append]
    refine ⟨by omega, ?_⟩
    rw [List.take_append_of_le_length (by omega)]
    exact (List.take_prefix 1 key).trans (List.prefix_append _ _)
  have htake := secretRe.take_sub redactedSecret hone l
  simpa [List.head?_take] using congrArg List.head? htake

/-- A redacted secret is found again, and it is left as it is. -/
theorem sub_secretRe_sub (l : List Char) :
  secretRe.sub redactedSecret (secretRe.sub redactedSecret l) = secretRe.sub redactedSecret l
  := by
  apply secretRe.sub_sub
  · rintro x l hfind
    rcases secretRe.sub_eq_self_or redactedSecret l with hself | ⟨before, s, rest, rfl, hs, hsub⟩
    · rw [hself, hfind]
    · obtain ⟨key, m, rfl, hkey, -⟩ := secret_of_find hs
      rw [hsub, redactedSecret_append hkey]
      by_contra hsome
      rw [← List.cons_append, List.append_assoc] at hsome
      apply hkey.unsplit.find_ne_none (List.cons_ne_nil x before) hsome (m ++ rest)
      rw [← hfind]
      simp
  · rintro s l hfind
    obtain ⟨key, m, rfl, hkey, hm, hl⟩ := secret_of_find hfind
    rw [redactedSecret_append hkey, redactedSecret_append hkey]
    refine ⟨?_, rfl⟩
    rw [List.append_assoc]
    apply secretRe_find_append hkey assigned_redacted
    rw [WordEnd, head?_sub_secretRe]
    apply hl

/-! ### The user information of URLs -/

/-- The user information of each URL in a text is replaced. -/
def Cleaned (text : List Char) : Prop :=
  ∀ m rest, m ++ rest <:+ text → urlUserinfoRe.find (m ++ rest) = some m.length →
    m = "://***@".toList

theorem urlUserinfo_redacted :
  UrlUserinfo "://***@".toList
  := ⟨['*', '*', '*'], rfl, by simp, Python.forall_mem_of_all (by decide)⟩

/-- A match at the start of a text, from a shorter beginning of it to a longer. -/
theorem urlUserinfoRe_find_of_le {xs ys n} (h : urlUserinfoRe.find (xs ++ ys) = some n)
    (hle : n ≤ xs.length) (zs : List Char) :
  urlUserinfoRe.find (xs ++ zs) = some n
  := by
  have hxs := urlUserinfoRe.find_restrict h hle
  obtain ⟨m, rest, rfl, rfl, hm⟩ := urlUserinfoLength_eq_some_iff.mp hxs
  rw [List.append_assoc]
  apply urlUserinfoRe_find_append hm (rest ++ zs)

theorem Cleaned.of_cons {x : Char} {l : List Char}
    (hx : ∀ m rest, m ++ rest = x :: l → urlUserinfoRe.find (m ++ rest) = some m.length →
      m = "://***@".toList) (hl : Cleaned l) :
  Cleaned (x :: l)
  := by
  rintro m rest hsuffix hfind
  rcases List.suffix_cons_iff.mp hsuffix with heq | hsuffix
  · apply hx m rest heq hfind
  · apply hl m rest hsuffix hfind

theorem Cleaned.suffix {l l' : List Char} (h : Cleaned l) (hsuffix : l' <:+ l) :
  Cleaned l'
  := by
  rintro m rest hm
  apply h m rest (hm.trans hsuffix)

/-- After its own pass. -/
theorem cleaned_cleaned (text : List Char) :
  Cleaned (cleaned text)
  := by
  unfold cleaned
  induction text using urlUserinfoRe.scan with
  | nil =>
    rintro m rest hsuffix hfind
    have hpos := urlUserinfoRe.find_pos hfind
    obtain ⟨rfl, -⟩ := List.append_eq_nil_iff.mp (List.suffix_nil.mp hsuffix)
    simp at hpos
  | skip x l hfind ih =>
    rw [urlUserinfoRe.sub_cons_of_find_none _ hfind]
    refine Cleaned.of_cons ?_ ih
    intro m rest heq hm
    rw [heq] at hm
    exfalso
    rcases urlUserinfoRe.sub_eq_self_or (fun _ => "://***@".toList) l with
      hself | ⟨before, m', rest', rfl, hm', hsub⟩
    · rw [hself, hfind] at hm
      cases hm
    · rw [hsub, ← List.cons_append] at hm
      have hle := le_of_urlUserinfoRe_find (List.cons_ne_nil x before) hm
      have hm₀ := urlUserinfoRe_find_of_le hm hle (m' ++ rest')
      rw [List.cons_append, hfind] at hm₀
      cases hm₀
  | found m l hfind ih =>
    rw [urlUserinfoRe.sub_append_of_find _ hfind]
    refine Cleaned.of_cons ?_ ?_
    · intro m' rest heq hm'
      rw [heq] at hm'
      have hagain := urlUserinfoRe_find_append urlUserinfo_redacted
        (urlUserinfoRe.sub (fun _ => "://***@".toList) l)
      have hlen : m'.length = 7 := by
        rw [← Option.some_inj, ← hm']
        apply hagain
      exact (List.append_inj heq hlen).1
    · rintro m' rest hsuffix hm'
      refine ih m' rest (urlUserinfoRe.suffix_of_no_start ?_ ?_ hsuffix) hm'
      · rintro c hc l
        apply urlUserinfoRe_find_cons
        rintro rfl
        revert hc
        decide
      · rw [hm']
        simp

/-- The user information of a URL ends before a redacted secret that follows it. -/
theorem le_of_urlUserinfoRe_find_redacted {xs key z : List Char} {n : ℕ} (hkey : IsKey key)
    (hz : WordEnd z) (h : urlUserinfoRe.find (xs ++ ((key ++ "=***".toList) ++ z)) = some n) :
  n ≤ xs.length
  := by
  by_contra hlt
  obtain ⟨m, rest, heq, hm, hfind⟩ := urlUserinfoRe.exists_of_lt_find h (Nat.lt_of_not_le hlt)
  rw [← List.append_assoc xs] at hfind
  have hurl := urlUserinfo_of_find hfind
  have hat : '@' ∈ m := by
    obtain ⟨info, hinfo, -⟩ := hurl
    have hlast := congrArg List.getLast? hinfo
    rw [← List.append_assoc, List.getLast?_concat, List.getLast?_append_of_ne_nil _ hm] at hlast
    apply List.mem_of_getLast? hlast
  have hbegins : m <+: key ++ "=***".toList := by
    rcases List.append_eq_append_iff.mp heq with ⟨as, rfl, rfl⟩ | ⟨bs, hsplit, -⟩
    · cases as with
      | nil => simp
      | cons c as =>
        have hsolid := hurl.solid c (by simp)
        have hspace := isSolid_eq_false.mpr (hz c rfl)
        rw [hsolid] at hspace
        cases hspace
    · exact ⟨bs, hsplit.symm⟩
  rcases List.mem_append.mp (hbegins.subset hat) with hmem | hmem
  · have huser := (hkey.forall_mem '@' hmem).2.1
    revert huser
    decide
  · revert hmem
    decide

/-- The replacement of secrets leaves no other user information in a text. -/
theorem Cleaned.sub_secretRe {text : List Char} (h : Cleaned text) :
  Cleaned (secretRe.sub redactedSecret text)
  := by
  induction text using secretRe.scan with
  | nil => exact h
  | skip x l hfind ih =>
    rw [secretRe.sub_cons_of_find_none _ hfind]
    refine Cleaned.of_cons ?_ (ih (h.suffix (List.suffix_cons x l)))
    intro m rest heq hm
    rcases secretRe.sub_eq_self_or redactedSecret l with hself | ⟨before, s, rest', rfl, hs, hsub⟩
    · rw [hself] at heq
      apply h m rest (heq ▸ List.suffix_rfl) hm
    · obtain ⟨key, a, rfl, hkey, -, hrest⟩ := secret_of_find hs
      have hend : WordEnd (secretRe.sub redactedSecret rest') := by
        rw [WordEnd, head?_sub_secretRe]
        apply hrest
      rw [hsub, redactedSecret_append hkey, ← List.cons_append] at heq
      rw [heq] at hm
      have hle := le_of_urlUserinfoRe_find_redacted hkey hend hm
      obtain ⟨zs, hzs⟩ : m <+: x :: before :=
        List.prefix_of_prefix_length_le ⟨rest, heq⟩ (List.prefix_append _ _) hle
      have hm₀ := urlUserinfoRe_find_of_le hm hle (key ++ a ++ rest')
      refine h m (zs ++ (key ++ a ++ rest')) ?_ ?_
      · rw [← List.append_assoc, hzs]
        apply List.suffix_rfl
      · rw [← List.append_assoc, hzs, hm₀]
  | found s l hfind ih =>
    obtain ⟨key, a, rfl, hkey, -⟩ := secret_of_find hfind
    rw [secretRe.sub_append_of_find _ hfind, redactedSecret_append hkey]
    rintro m rest hsuffix hm
    refine ih (h.suffix (List.suffix_append _ l)) m rest ?_ hm
    refine urlUserinfoRe.suffix_of_no_start ?_ ?_ hsuffix
    · rintro c hc l
      apply urlUserinfoRe_find_cons
      rintro rfl
      rcases List.mem_append.mp hc with hmem | hmem
      · have hassign := (hkey.forall_mem ':' hmem).2.2
        revert hassign
        decide
      · revert hmem
        decide
    · rw [hm]
      simp

theorem cleaned_eq_self {text : List Char} (h : Cleaned text) :
  cleaned text = text
  := by
  apply urlUserinfoRe.sub_eq_self
  rintro m rest hsuffix hfind
  exact (h m rest hsuffix hfind).symm

/-- A redaction changes nothing in a redacted text. -/
@[simp]
theorem redactSecrets_redactSecrets (text : String) :
  redactSecrets (redactSecrets text) = redactSecrets text
  := by
  unfold redactSecrets
  rw [String.toList_ofList, cleaned_eq_self (cleaned_cleaned text.toList).sub_secretRe,
    sub_secretRe_sub]

/-- Neither does it in a redacted event of the log. -/
theorem redactEvent_redactEvent (event : List (String × Json)) :
  redactEvent (redactEvent event) = redactEvent event
  := by
  unfold redactEvent
  rw [List.map_map]
  apply List.map_congr_left
  rintro ⟨key, value⟩ -
  cases value <;> simp

end Evalorch
