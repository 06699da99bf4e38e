import Mathlib.Data.List.Basic
import Leoflow.Alerts.Template

/-!
# Alert templates

Which templates `Render` fills as the validator reads them.
-/

namespace Leoflow.Template

open Lib (isSpace trimSpace)
open List Option

variable {c : Char} {cs body : List Char}

/-! ## Scanning -/

section Segments

variable {β : Type} {matchAt : List Char → Option (β × Nat)}

theorem segments_drop (skip : Nat) (cs : List Char) : segments matchAt skip cs = segments matchAt 0 (cs.drop skip) := by
  induction cs generalizing skip with
  | nil => simp [segments]
  | cons c cs ih =>
    cases skip with
    | zero => rfl
    | succ skip =>
      rw [segments, drop_succ_cons]
      exact ih skip

theorem segments_of_none (h : matchAt (c :: cs) = none) :
    segments matchAt 0 (c :: cs) = .inl c :: segments matchAt 0 cs := by
  rw [segments, h]

theorem segments_of_some {b : β} {more : Nat} (h : matchAt (c :: cs) = some (b, more)) :
    segments matchAt 0 (c :: cs) = .inr b :: segments matchAt 0 (cs.drop more) := by
  rw [segments, h, ← segments_drop]

end Segments

/-- What becomes of a segment of a template. -/
def fill (ev : Event) : Char ⊕ List Char → List Char
  | .inl c => [c]
  | .inr body => (ev.value (String.ofList (captured body))).toList

/-- What the template stands for: every placeholder the validator recognises, filled. -/
def filled (ev : Event) (cs : List Char) : List Char := (segments placeholderAt 0 cs).flatMap (fill ev)

/-! ## The two ways to recognise a placeholder -/

/-- No brace stands in the text. -/
def Plain (body : List Char) : Prop := ∀ c ∈ body, isBrace c = false

theorem placeholderAt_braced (h : Plain body) (rest : List Char) :
    placeholderAt (braced body ++ rest) = some (body, body.length + 3) := by
  have hplain : ∀ c ∈ body, (!isBrace c) := fun c hc => by rw [h c hc]; rfl
  have hcs : braced body ++ rest = '{' :: '{' :: (body ++ '}' :: '}' :: rest) := by simp [braced]
  rw [hcs, placeholderAt, takeWhile_append_of_pos hplain, dropWhile_append_of_pos hplain]
  simp [isBrace]

theorem placeholderAt_eq_some {more : Nat} (h : placeholderAt cs = some (body, more)) :
    Plain body ∧ more = body.length + 3 ∧ ∃ rest, cs = braced body ++ rest := by
  unfold placeholderAt at h
  split at h
  next rest =>
    split at h
    next hends =>
      cases h
      obtain ⟨rest', hrest⟩ := isPrefixOf_iff_prefix.mp hends
      refine ⟨fun c hc => ?_, rfl, rest', ?_⟩
      · simpa using all_eq_true.mp all_takeWhile c hc
      · have hsplit : rest = rest.takeWhile (!isBrace ·) ++ ('}' :: '}' :: rest') :=
          (takeWhile_append_dropWhile.symm).trans (congrArg _ hrest.symm)
        rw [braced]
        simpa using hsplit
    · cases h
  · cases h

theorem plain_of_mem {name : String} (h : name ∈ placeholders) : Plain name.toList := by
  have hall : (placeholders.all (·.toList.all (!isBrace ·))) := by decide +kernel
  simpa [Plain] using all_eq_true.mp (all_eq_true.mp hall name h)

/-- The replacer knows a placeholder that the regular expression finds if its body is a name as it stands. -/
theorem pairAt_pairs (ev : Event) (cs : List Char) : pairAt ev.pairs cs = (placeholderAt cs).bind fun p =>
      if String.ofList p.1 ∈ placeholders then some ((ev.value (String.ofList p.1)).toList, p.2) else none := by
  have hfind : ∀ name ∈ placeholders, (braced name.toList).isPrefixOf cs ↔
      placeholderAt cs = some (name.toList, name.toList.length + 3) := by
    intro name hname
    rw [ isPrefixOf_iff_prefix]
    constructor
    · rintro ⟨rest, rfl⟩
      exact placeholderAt_braced (plain_of_mem hname) rest
    · intro h
      obtain ⟨-, -, rest, rfl⟩ := placeholderAt_eq_some h
      exact prefix_append ..
  rw [pairAt]
  cases hpair : ev.pairs.find? fun p => p.1.isPrefixOf cs with
  | none =>
    rw [List.find?_eq_none] at hpair
    cases hat : placeholderAt cs with
    | none => rfl
    | some p =>
      have hlen := (placeholderAt_eq_some hat).2.1
      rw [bind_some, if_neg, map_none]
      intro hknown
      refine hpair _ (mem_map_of_mem hknown) ((hfind _ hknown).mpr ?_)
      rw [hat, String.toList_ofList, ← hlen]
  | some pair =>
    obtain ⟨name, hname, rfl⟩ := mem_map.mp (mem_of_find?_eq_some hpair)
    have hstands : (braced name.toList).isPrefixOf cs := by simpa using List.find?_some hpair
    have hat := (hfind name hname).mp hstands
    rw [hat, bind_some, String.ofList_toList, if_pos hname]
    simp [braced]

/-- What the replacer makes of a piece that the regular expression finds. -/
def replaced (ev : Event) : Char ⊕ List Char → List Char
  | .inl c => [c]
  | .inr body => if String.ofList body ∈ placeholders then (ev.value (String.ofList body)).toList else braced body

theorem placeholderAt_of_ne (h : c ≠ '{') (cs : List Char) :
    placeholderAt (c :: cs) = none ∧ placeholderAt ('{' :: c :: cs) = none := by
  constructor <;>
  · unfold placeholderAt
    split
    next heq =>
      cases heq
      exact absurd rfl h
    · rfl

variable {ev : Event}

theorem replace_of_none (h : pairAt ev.pairs (c :: cs) = none) :
    replace ev.pairs (c :: cs) = c :: replace ev.pairs cs := by
  rw [replace, segments_of_none h]
  rfl

theorem replace_append (h : '{' ∉ cs) (rest : List Char) :
    replace ev.pairs (cs ++ rest) = cs ++ replace ev.pairs rest := by
  induction cs with
  | nil => rfl
  | cons c cs ih =>
    rw [mem_cons, not_or] at h
    have hnone : pairAt ev.pairs (c :: (cs ++ rest)) = none := by
      rw [pairAt_pairs, (placeholderAt_of_ne (Ne.symm h.1) _).1, bind_none]
    rw [cons_append, replace_of_none hnone, ih h.2, cons_append]

/-- A placeholder that the replacer does not know is copied too: nothing in it opens another one. -/
theorem replace_unknown (hplain : Plain body) (h : String.ofList body ∉ placeholders) (rest : List Char) :
    replace ev.pairs (braced body ++ rest) = braced body ++ replace ev.pairs rest := by
  have hfirst : pairAt ev.pairs (braced body ++ rest) = none := by
    rw [pairAt_pairs, placeholderAt_braced hplain, bind_some, if_neg h]
  have hopen : '{' ∉ body ++ ['}', '}'] := by
    rw [mem_append, not_or]
    exact ⟨fun hmem => absurd (hplain _ hmem) (by decide), by decide⟩
  have hsecond : pairAt ev.pairs ('{' :: ((body ++ ['}', '}']) ++ rest)) = none := by
    rw [pairAt_pairs]
    cases body with
    | nil => rfl
    | cons c body =>
      have hne : c ≠ '{' := fun heq => hopen (heq ▸ mem_cons_self)
      exact congrArg (Option.bind · _) (placeholderAt_of_ne hne _).2
  have hcs : braced body ++ rest = '{' :: '{' :: ((body ++ ['}', '}']) ++ rest) := rfl
  rw [hcs] at hfirst ⊢
  rw [replace_of_none hfirst, replace_of_none hsecond, replace_append hopen]
  rfl

/-- **The replacer works on the pieces that the regular expression finds.** -/
theorem replace_eq (cs : List Char) : replace ev.pairs cs = (segments placeholderAt 0 cs).flatMap (replaced ev) := by
  generalize hn : cs.length = n
  induction n using Nat.strong_induction_on generalizing cs with
  | _ n ih =>
    cases cs with
    | nil => rfl
    | cons c cs =>
      cases hat : placeholderAt (c :: cs) with
      | none =>
        have hnone : pairAt ev.pairs (c :: cs) = none := by rw [pairAt_pairs, hat, bind_none]
        rw [replace_of_none hnone, segments_of_none hat, flatMap_cons, ih cs.length (by simp at hn; omega) cs rfl]
        rfl
      | some p =>
        obtain ⟨body, more⟩ := p
        obtain ⟨hplain, rfl, rest, hcs⟩ := placeholderAt_eq_some hat
        have hrest : cs.drop (body.length + 3) = rest := by
          have hdrop := congrArg (List.drop (body.length + 4)) hcs
          rwa [drop_succ_cons, drop_left' (by simp [braced])] at hdrop
        have hlen : rest.length < n := by
          rw [← hn, hcs]
          simp [braced]
          omega
        rw [segments_of_some hat, hrest, flatMap_cons, ← ih rest.length hlen rest rfl, replaced]
        by_cases hknown : String.ofList body ∈ placeholders
        · have hpair : pairAt ev.pairs (c :: cs) = some ((ev.value (String.ofList body)).toList, body.length + 3) := by
            rw [pairAt_pairs, hat, bind_some, if_pos hknown]
          rw [if_pos hknown, replace, segments_of_some hpair, hrest]
          rfl
        · rw [if_neg hknown, hcs, replace_unknown hplain hknown]

/-! ## Accepted templates -/

theorem mem_bodies : body ∈ bodies cs ↔ .inr body ∈ segments placeholderAt 0 cs := by
  simp [bodies, mem_filterMap, Sum.getRight?_eq_some_iff]

theorem unknownNames_eq_nil {message : String} :
    unknownNames message = [] ↔ ∀ body ∈ bodies message.toList, String.ofList (captured body) ∈ placeholders := by
  simp [unknownNames, filter_eq_nil_iff]

theorem validateAlertTemplates_eq_ok {messages : List String} {i : Nat} :
    validateAlertTemplates i messages = .ok () ↔ ∀ message ∈ messages, unknownNames message = [] := by
  induction messages generalizing i with
  | nil => simp [validateAlertTemplates]
  | cons message messages ih =>
    rw [validateAlertTemplates, forall_mem_cons]
    split
    next hknown =>
      rw [ih, and_iff_right hknown]
    next hunknown =>
      simp [hunknown]

theorem captured_of_mem (h : String.ofList body ∈ placeholders) : captured body = body := by
  have hnames : ∀ name ∈ placeholders, captured name.toList = name.toList := by decide +kernel
  simpa using hnames _ h

/-- Where every placeholder is written without blanks, both ways agree. -/
theorem replace_eq_filled (htight : ∀ body ∈ bodies cs, String.ofList body ∈ placeholders) :
    replace ev.pairs cs = filled ev cs := by
  rw [replace_eq, filled]
  refine flatMap_congr fun piece hpiece => ?_
  cases piece with
  | inl c => rfl
  | inr body =>
    have hknown := htight body (mem_bodies.mpr hpiece)
    rw [replaced, fill, if_pos hknown, captured_of_mem hknown]

theorem bodies_of_not_mem (h : '{' ∉ cs) : bodies cs = [] := by
  induction cs with
  | nil => rfl
  | cons c cs ih =>
    rw [mem_cons, not_or] at h
    rw [bodies, segments_of_none (placeholderAt_of_ne (Ne.symm h.1) cs).1]
    exact ih h.2

theorem bodies_of_blank {tmpl : String} (h : trimSpace tmpl = "") : bodies tmpl.toList = [] := by
  have hnil : Lib.strip isSpace tmpl.toList = [] := by simpa [trimSpace] using congrArg String.toList h
  exact bodies_of_not_mem fun hmem => absurd (Lib.all_of_strip_eq_nil hnil _ hmem) (by decide +kernel)

/-- A run that fills every placeholder with the same letter. -/
def plainEvent : Event := ⟨"x", "x", "x", ["x"]⟩

/-- If a rendered text is filled with that letter throughout, no placeholder was left: it would begin with a brace. -/
theorem known_of_eq {pieces : List (Char ⊕ List Char)}
    (hknown : ∀ body, .inr body ∈ pieces → String.ofList (captured body) ∈ placeholders)
    (h : pieces.flatMap (replaced plainEvent) = pieces.flatMap (fill plainEvent)) :
    ∀ body, .inr body ∈ pieces → String.ofList body ∈ placeholders := by
  have hvalue : ∀ name ∈ placeholders, plainEvent.value name = "x" := by decide +kernel
  induction pieces with
  | nil => exact fun _ hmem => by cases hmem
  | cons piece pieces ih =>
    have hrest := ih fun body hbody => hknown body (mem_cons_of_mem _ hbody)
    rw [flatMap_cons, flatMap_cons] at h
    cases piece with
    | inl c =>
      intro body hbody
      exact hrest (List.cons.inj h).2 body (by simpa using hbody)
    | inr first =>
      rw [fill, hvalue _ (hknown first mem_cons_self), replaced] at h
      split at h
      next htight =>
        rw [hvalue _ htight] at h
        intro body hbody
        rcases mem_cons.mp hbody with heq | hbody
        · cases heq
          exact htight
        · exact hrest (append_cancel_left h) body hbody
      · exact absurd (List.cons.inj h).1 (by decide)

/-- **An accepted template is rendered in full exactly when its placeholders are written without blanks.** -/
theorem render_fills_iff {messages : List String} (hok : validateAlertTemplates 0 messages = .ok ()) {message : String}
    (hmem : message ∈ messages) :
    (∀ ev, render message ev = filled ev (effective message ev)) ↔
      ∀ body ∈ bodies message.toList, captured body = body := by
  have hknown := unknownNames_eq_nil.mp (validateAlertTemplates_eq_ok.mp hok message hmem)
  by_cases hblank : trimSpace message = ""
  · refine iff_of_true (fun ev => replace_eq_filled ?_) (by simp [bodies_of_blank hblank])
    rw [effective, if_pos hblank]
    split <;> decide +kernel
  · have heff : ∀ ev, effective message ev = message.toList := fun ev => if_neg hblank
    constructor
    · intro h body hbody
      refine captured_of_mem ?_
      have hplain := h plainEvent
      rw [render, heff, replace_eq] at hplain
      exact known_of_eq (fun b hb => hknown b (mem_bodies.mpr hb)) hplain body (mem_bodies.mp hbody)
    · intro htight ev
      rw [render, heff]
      refine replace_eq_filled fun body hbody => ?_
      rw [← htight body hbody]
      exact hknown body hbody

theorem render_fills_tight : render "\x7b\x7bdag\x7d\x7d" plainEvent =
    filled plainEvent (effective "\x7b\x7bdag\x7d\x7d" plainEvent) :=
  (@render_fills_iff ["\x7b\x7bdag\x7d\x7d"] (by decide +kernel) _ mem_cons_self).mpr (by decide +kernel) _

/-- A placeholder with blanks. -/
def spaced : String := "\x7b\x7b dag \x7d\x7d"

/-- It is accepted, and sent as it is written. -/
theorem blanks_are_not_rendered : validateAlertTemplates 0 [spaced] = .ok () ∧
    render spaced plainEvent = spaced.toList ∧ filled plainEvent (effective spaced plainEvent) = ['x'] := by
  decide +kernel

end Leoflow.Template
