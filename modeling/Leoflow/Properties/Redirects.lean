import Leoflow.Api.Redirects

/-!
# Where a redirect after the login leads
-/

namespace Leoflow.Api

theorem scheme?_slash (ref : List Char) : scheme? ('/' :: ref) = none := by
  simp [scheme?]

theorem resolve_slash (page : Origin) (ref : List Char) :
    resolve page ('/' :: ref) = (authority? ('/' :: dropBreaks ref)).elim page (originOf page.scheme) := by
  have hkept : dropBreaks ('/' :: ref) = '/' :: dropBreaks ref := rfl
  simp only [resolve, hkept, scheme?_slash]
  cases authority? ('/' :: dropBreaks ref) with
  | none => rfl
  | some authority => rfl

/-- One slash that is followed by a slash or a backslash once tabs and line breaks are dropped. -/
def LeavesSite (next : List Char) : Prop :=
  ['/'].isPrefixOf next ∧ ¬['/', '/'].isPrefixOf next ∧
    ∃ c rest, dropBreaks next = '/' :: c :: rest ∧ (c = '/' ∨ c = '\\')

/-- **A redirect stays on every page's origin exactly where no slash or backslash follows the first one.** -/
theorem redirect_stays_iff (next : List Char) :
    (∀ page, resolve page (sanitizeNext next) = page) ↔ ¬LeavesSite next := by
  unfold LeavesSite sanitizeNext
  split
  next hdefault =>
    refine iff_of_true (fun page => rfl) ?_
    rintro ⟨hslash, hone, -⟩
    rcases hdefault with rfl | hno | htwo
    · cases hslash
    · exact hno hslash
    · exact hone htwo
  next hkept =>
    rw [not_or, not_or, not_not] at hkept
    obtain ⟨ref, rfl⟩ := List.isPrefixOf_iff_prefix.mp hkept.2.1
    have hdrop : dropBreaks ('/' :: ref) = '/' :: dropBreaks ref := rfl
    rw [List.singleton_append] at hkept ⊢
    simp only [resolve_slash, hkept.2.1, hkept.2.2, hdrop]
    cases dropBreaks ref with
    | nil => simp [authority?]
    | cons c rest =>
      by_cases hc : c = '/' ∨ c = '\\'
      · refine iff_of_false (fun hall => ?_) fun hno => hno ⟨trivial, by simp, c, rest, rfl, hc⟩
        -- a page whose host is longer than the one the value names
        obtain ⟨authority, hauth⟩ : ∃ authority, authority? ('/' :: c :: rest) = some authority := by
          rcases hc with rfl | rfl <;> exact ⟨_, rfl⟩
        rw [hauth] at hall
        have hpage := congrArg (fun o => o.host.length) (hall ⟨[], 'x' :: (originOf [] authority).host, []⟩)
        simp [originOf] at hpage
      · simp [authority?, hc]

/-- A backslash, or a tab between two slashes, names another host. -/
theorem backslash_leaves_site : let page : Origin := ⟨"https".toList, "flow.example".toList, []⟩
    resolve page (sanitizeNext "/\\evil.example".toList) = ⟨"https".toList, "evil.example".toList, []⟩ ∧
      resolve page (sanitizeNext "/\t/evil.example".toList) = ⟨"https".toList, "evil.example".toList, []⟩ := by
  decide +kernel

end Leoflow.Api
