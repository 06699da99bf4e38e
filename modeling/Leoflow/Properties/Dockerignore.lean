import Mathlib.Data.List.Basic
import Leoflow.Cli.Ignore

/-!
# What `exclude_paths` adds to a .dockerignore

When the author's file comes back from a build, and when the entries have the final word over its lines.
-/

namespace Leoflow.Cli.Ignore

open List

/-! ## Forms -/

variable {e f t : Text} {excludes : List Text} {original : Text}

theorem mem_expandPattern (h : f ∈ expandPattern e) : ∃ a pat, trimSpace e = a :: pat ∧ a ≠ .char '!' ∧ a ≠ .char '#' ∧
      (f = a :: pat ∨ f = lit "**/" ++ (a :: pat) ∨ f = trimSlash (a :: pat) ++ lit "/**" ∨
        f = lit "**/" ++ (a :: pat) ++ lit "/**") := by
  unfold expandPattern at h
  simp only at h
  split at h
  · cases h
  next hkept =>
    cases hpat : trimSpace e with
    | nil => exact absurd (.inl hpat) hkept
    | cons a pat =>
      rw [hpat] at h hkept
      refine ⟨a, pat, rfl, fun ha => hkept (.inr (.inl (by rw [ha]; rfl))),
        fun ha => hkept (.inr (.inr (by rw [ha]; rfl))), ?_⟩
      simp only [mem_append, mem_singleton, mem_ite_nil_left] at h
      tauto

theorem trimSpace_mem_expandPattern (h : expandPattern e ≠ []) : trimSpace e ∈ expandPattern e := by
  unfold expandPattern at h ⊢
  simp only at h ⊢
  split at h
  · exact absurd rfl h
  next hkept =>
    rw [if_neg hkept]
    simp

theorem trimSlash_subset (pat : Text) : trimSlash pat ⊆ pat := by
  unfold trimSlash
  split
  · exact (dropLast_sublist pat).subset
  · exact List.Subset.refl pat

/-- A form has a line break only where the entry has one. -/
theorem nl_not_mem_form (h : f ∈ expandPattern e) (he : nl ∉ trimSpace e) : nl ∉ f := by
  obtain ⟨a, pat, hpat, -, -, hf⟩ := mem_expandPattern h
  rw [hpat] at he
  have hdeep : nl ∉ lit "**/" := by decide
  have hall : nl ∉ lit "/**" := by decide
  have hslash : nl ∉ trimSlash (a :: pat) := fun hmem => he (trimSlash_subset _ hmem)
  rcases hf with rfl | rfl | rfl | rfl
  · exact he
  · rw [mem_append, not_or]
    exact ⟨hdeep, he⟩
  · rw [mem_append, not_or]
    exact ⟨hslash, hall⟩
  · rw [mem_append, mem_append, not_or, not_or]
    exact ⟨⟨hdeep, he⟩, hall⟩

/-- A line that the builder reads as a plain pattern. -/
structure Plain (f : Text) : Prop where
  head : ∃ a ∈ f.head?, isSpace a = false ∧ a ≠ .char '!' ∧ a ≠ .char '#'
  last : ∀ a ∈ f.getLast?, isSpace a = false

theorem Plain.trimSpace_eq (h : Plain f) : trimSpace f = f := by
  obtain ⟨a, ha, hspace, -⟩ := h.head
  refine Lib.strip_eq_self (fun b hb => ?_) h.last
  rw [Option.mem_unique hb ha]
  exact hspace

theorem Plain.ne_nil (h : Plain f) : f ≠ [] := by
  rintro rfl
  obtain ⟨a, ha, -⟩ := h.head
  cases ha

theorem plain_generated : Plain generatedDockerfileName :=
  ⟨⟨.char '.', rfl, by decide, by decide, by decide⟩, fun a ha => by cases ha; decide⟩

theorem plain_form (h : f ∈ expandPattern e) : Plain f := by
  obtain ⟨a, pat, hpat, hbang, hhash, hf⟩ := mem_expandPattern h
  have ha : isSpace a = false := @Lib.not_of_head?_strip _ _ e a (by rw [← trimSpace, hpat]; rfl)
  have hlast : ∀ b ∈ (a :: pat).getLast?, isSpace b = false := fun b hb =>
    @Lib.not_of_getLast?_strip _ _ e b (by rw [← trimSpace, hpat]; exact hb)
  have hstar : ∃ c ∈ (lit "**/").head?, isSpace c = false ∧ c ≠ .char '!' ∧ c ≠ .char '#' :=
    ⟨.char '*', rfl, by decide, by decide, by decide⟩
  have hall : ∀ (l : Text), ∀ b ∈ (l ++ lit "/**").getLast?, isSpace b = false := by
    intro l b hb
    rw [List.getLast?_append_of_ne_nil _ (by decide)] at hb
    cases hb
    decide
  rcases hf with rfl | rfl | rfl | rfl
  · exact ⟨⟨a, rfl, ha, hbang, hhash⟩, hlast⟩
  · exact ⟨hstar, by rwa [List.getLast?_append_of_ne_nil _ (cons_ne_nil a pat)]⟩
  · refine ⟨?_, hall _⟩
    -- the pattern can be a single slash, which the suffix puts back
    unfold trimSlash
    split
    next hslash =>
      cases pat with
      | nil => exact ⟨.char '/', rfl, by decide, by decide, by decide⟩
      | cons b pat => exact ⟨a, rfl, ha, hbang, hhash⟩
    · exact ⟨a, rfl, ha, hbang, hhash⟩
  · exact ⟨hstar, hall _⟩

theorem mem_newForms {ex fs : List Text} : f ∈ newForms ex fs ↔ f ∈ fs ∧ f ∉ ex := by
  induction fs generalizing ex with
  | nil => simp [newForms]
  | cons g fs ih =>
    rw [newForms]
    split <;> simp only [mem_cons, ih, not_or]
    next hg =>
      constructor
      · exact fun h => ⟨.inr h.1, h.2⟩
      · rintro ⟨rfl | h, hex⟩
        · exact absurd hg hex
        · exact ⟨h, hex⟩
    next hg =>
      by_cases hfg : f = g
      · simp [hfg, hg]
      · simp [hfg]

/-- What is added: the forms and the generated file, unless they are lines already. -/
theorem mem_wanted : f ∈ wanted original excludes ↔
    (f ∈ excludes.flatMap expandPattern ∨ f = generatedDockerfileName) ∧ f ∉ existing original := by
  simp only [wanted, mem_append, mem_ite_nil_left, mem_singleton, mem_newForms, not_or, not_and_or, not_not]
  by_cases hf : f = generatedDockerfileName
  · subst hf
    tauto
  · tauto

/-! ## Lines -/

/-- The lines that are not empty. -/
def textLines (t : Text) : List Text := (t.splitOn nl).filter (· ≠ [])

theorem nl_not_mem_of_line {l : Text} (h : l ∈ t.splitOn nl) : nl ∉ l := by
  induction t generalizing l with
  | nil =>
    rw [splitOn_nil, mem_singleton] at h
    simp [h]
  | cons c t ih =>
    rw [splitOn_cons_eq_if_modifyHead] at h
    obtain ⟨first, rest, hsplit⟩ := exists_cons_of_ne_nil (splitOn_ne_nil nl t)
    rw [hsplit] at h ih
    split at h
    · rcases mem_cons.mp h with rfl | h
      · simp
      · exact ih h
    next hc =>
      rw [modifyHead_cons] at h
      rcases mem_cons.mp h with rfl | h
      · rw [mem_cons, not_or]
        exact ⟨fun heq => hc (by simp [heq]), ih mem_cons_self⟩
      · exact ih (mem_cons_of_mem _ h)

theorem nl_not_mem_of_existing (h : f ∈ existing t) : nl ∉ f := by
  obtain ⟨l, hl, rfl⟩ := mem_map.mp h
  exact fun hmem => nl_not_mem_of_line hl ((Lib.strip_sublist isSpace l).subset hmem)

theorem mem_existing (hf : f ≠ []) : f ∈ existing t ↔ ∃ l ∈ textLines t, trimSpace l = f := by
  rw [existing, mem_map]
  refine exists_congr fun l => and_congr_left fun htrim => ?_
  rw [textLines, mem_filter, decide_eq_true_eq, iff_self_and]
  rintro - rfl
  exact hf (htrim.symm.trans rfl)

theorem textLines_append_nl (t r : Text) : textLines (t ++ nl :: r) = textLines t ++ textLines r := by
  rw [textLines, splitOn_append_cons_self, filter_append]
  rfl

theorem textLines_endLine (t r : Text) : textLines (endLine t ++ r) = textLines t ++ textLines r := by
  unfold endLine
  split
  next hended =>
    rcases hended with rfl | hlast
    · rfl
    · obtain ⟨u, rfl⟩ := List.getLast?_eq_some_iff.mp hlast
      rw [append_assoc, singleton_append, textLines_append_nl, textLines_append_nl]
      simp [textLines]
  · rw [append_assoc, singleton_append, textLines_append_nl]

theorem textLines_cons {l : Text} (hne : l ≠ []) (hnl : nl ∉ l) (r : Text) :
    textLines (l ++ [nl] ++ r) = l :: textLines r := by
  rw [append_assoc, singleton_append, textLines_append_nl, textLines, splitOn_eq_singleton hnl,
    filter_cons_of_pos (by simpa using hne)]
  rfl

theorem textLines_flatMap {ls : List Text} (h : ∀ l ∈ ls, l ≠ [] ∧ nl ∉ l) :
    textLines (ls.flatMap (· ++ [nl])) = ls := by
  induction ls with
  | nil => simp [textLines]
  | cons l ls ih =>
    rw [forall_mem_cons] at h
    rw [flatMap_cons, textLines_cons h.1.1 h.1.2, ih h.2]

theorem header_text : nl ∉ dockerignoreHeader ∧ dockerignoreHeader.head? = some (.char '#') ∧
    .char '#' ∉ dockerignoreHeader.tail ∧ nl ∉ generatedDockerfileName := by
  decide +kernel

theorem header_eq : ∃ tl, dockerignoreHeader = .char '#' :: tl ∧ .char '#' ∉ tl := by
  obtain ⟨tl, htl⟩ := List.head?_eq_some_iff.mp header_text.2.1
  refine ⟨tl, htl, ?_⟩
  have hhash := header_text.2.2.1
  rwa [htl, tail_cons] at hhash

/-- No entry that yields forms has a line break in it. -/
def OneLine (excludes : List Text) : Prop := ∀ e ∈ excludes, expandPattern e = [] ∨ nl ∉ trimSpace e

theorem plain_of_entry (h : f ∈ excludes.flatMap expandPattern ∨ f = generatedDockerfileName) : Plain f := by
  rcases h with hform | rfl
  · obtain ⟨e, -, hf⟩ := mem_flatMap.mp hform
    exact plain_form hf
  · exact plain_generated

theorem plain_of_wanted (h : f ∈ wanted original excludes) : Plain f := plain_of_entry (mem_wanted.mp h).1

theorem nl_not_mem_of_wanted (hone : OneLine excludes) (h : f ∈ wanted original excludes) : nl ∉ f := by
  rcases (mem_wanted.mp h).1 with hform | rfl
  · obtain ⟨e, he, hf⟩ := mem_flatMap.mp hform
    rcases hone e he with hnone | hnl
    · rw [hnone] at hf
      cases hf
    · exact nl_not_mem_form hf hnl
  · exact header_text.2.2.2

theorem textLines_merge (hone : OneLine excludes) : ∃ comments, (∀ c ∈ comments, c = dockerignoreHeader) ∧
    textLines (mergeDockerignore original excludes).1 = textLines original ++ comments ++ wanted original excludes := by
  have hlines := @textLines_flatMap (wanted original excludes)
    fun l hl => ⟨(plain_of_wanted hl).ne_nil, nl_not_mem_of_wanted hone hl⟩
  simp only [mergeDockerignore]
  split
  next hnone =>
    exact ⟨[], by simp, by simp [hnone]⟩
  · rw [textLines_endLine, header]
    split
    · exact ⟨[], by simp, by rw [nil_append, hlines, append_nil]⟩
    · refine ⟨[dockerignoreHeader], by simp, ?_⟩
      obtain ⟨tl, htl, -⟩ := header_eq
      rw [textLines_cons (htl ▸ cons_ne_nil _ tl) header_text.1, hlines, append_assoc, singleton_append]

/-! ## The author's file comes back -/

theorem before_eq_none {h t : Text} : before h t = none ↔ ¬h <:+: t := by
  induction t with
  | nil =>
    cases h <;> simp [before]
  | cons c t ih =>
    rw [before, infix_cons_iff, not_or, ← ih, ← isPrefixOf_iff_prefix]
    split <;> simp_all

/-- A text whose first character does not occur again cannot overlap itself. -/
theorem before_append {c : Rune} {tl : Text} (hc : c ∉ tl) (r : Text) (h : before (c :: tl) t = none) :
    before (c :: tl) (t ++ (c :: tl ++ r)) = some t := by
  induction t with
  | nil => simp [before]
  | cons d t ih =>
    rw [before_eq_none, infix_cons_iff, not_or] at h
    rw [cons_append, before, if_neg, ih (before_eq_none.mpr h.2), Option.map_some]
    rw [ isPrefixOf_iff_prefix, ← cons_append]
    intro hpre
    rcases Nat.lt_or_ge (d :: t).length (c :: tl).length with hlt | hge
    · obtain ⟨s, hs⟩ := prefix_of_prefix_length_le (prefix_append (d :: t) _) hpre hlt.le
      rw [← hs, prefix_append_right_inj] at hpre
      cases s with
      | nil =>
        rw [append_nil] at hs
        rw [hs] at hlt
        exact hlt.ne rfl
      | cons b s =>
        rw [hs, cons_append] at hpre
        obtain ⟨rfl, -⟩ := cons_prefix_cons.mp hpre
        have htl : t ++ b :: s = tl := (List.cons.inj hs).2
        exact hc (htl ▸ by simp)
    · exact h.1 (prefix_of_prefix_length_le hpre (prefix_append _ _) hge)

theorem before_endLine (h : before dockerignoreHeader original = none) :
    before dockerignoreHeader (endLine original) = none := by
  unfold endLine
  split
  · exact h
  · rw [before_eq_none] at h ⊢
    rw [infix_concat_iff, suffix_concat_iff]
    rintro ((hnil | ⟨u, hu, -⟩) | hin)
    · obtain ⟨tl, htl, -⟩ := header_eq
      cases hnil.symm.trans htl
    · exact header_text.1 (by rw [hu]; simp)
    · exact h hin

theorem strip_merge (h : before dockerignoreHeader original = none)
    (hchanged : (mergeDockerignore original excludes).2) :
    stripLeoflowBlock (mergeDockerignore original excludes).1 = (endLine original, true) := by
  obtain ⟨tl, hhash, hno⟩ := header_eq
  simp only [mergeDockerignore] at hchanged ⊢
  split at hchanged
  · cases hchanged
  next hwant =>
    rw [if_neg hwant, header, h, stripLeoflowBlock, if_neg (by decide), append_assoc]
    have hcut : before dockerignoreHeader (endLine original ++
        (dockerignoreHeader ++ ([nl] ++ (wanted original excludes).flatMap (· ++ [nl])))) =
          some (endLine original) := by
      have hend := before_endLine h
      rw [hhash] at hend ⊢
      exact before_append hno _ hend
    rw [hcut]

theorem endLine_eq_self : endLine original = original ↔ original = [] ∨ original.getLast? = some nl := by
  unfold endLine
  split
  next hended =>
    exact iff_of_true rfl hended
  next hopen =>
    refine iff_of_false (fun heq => ?_) hopen
    simpa using congrArg List.length heq

theorem merge_eq_self : mergeDockerignore t excludes = (t, false) ↔ wanted t excludes = [] := by
  simp only [mergeDockerignore]
  split
  next hnone =>
    exact iff_of_true rfl hnone
  next hwant =>
    exact iff_of_false (fun heq => by cases (Prod.mk.inj heq).2) hwant

/-- A second merge adds nothing exactly where every entry is one line. -/
theorem wanted_merge_eq_nil : wanted (mergeDockerignore original excludes).1 excludes = [] ↔ OneLine excludes := by
  rw [eq_nil_iff_forall_not_mem]
  simp only [mem_wanted, not_and_or, not_not]
  constructor
  · intro h e he
    refine or_iff_not_imp_left.mpr fun hforms => ?_
    have hpat := trimSpace_mem_expandPattern hforms
    exact nl_not_mem_of_existing ((h _).resolve_left fun hno => hno (.inl (mem_flatMap.mpr ⟨e, he, hpat⟩)))
  · intro hone f
    by_cases hf : f ∈ excludes.flatMap expandPattern ∨ f = generatedDockerfileName
    · refine .inr ?_
      obtain ⟨comments, -, hlines⟩ := @textLines_merge excludes original hone
      have hplain := plain_of_entry hf
      rw [mem_existing hplain.ne_nil, hlines]
      by_cases hold : f ∈ existing original
      · obtain ⟨l, hl, htrim⟩ := (mem_existing hplain.ne_nil).mp hold
        exact ⟨l, mem_append_left _ (mem_append_left _ hl), htrim⟩
      · exact ⟨f, mem_append_right _ (mem_wanted.mpr ⟨hf, hold⟩), hplain.trimSpace_eq⟩
    · exact .inl hf

/-- **The author's file comes back and a second merge changes nothing exactly where the file ended its last line and no
entry has a line break.** -/
theorem merge_restores_iff (hclean : before dockerignoreHeader original = none)
    (hchanged : (mergeDockerignore original excludes).2) :
    (stripLeoflowBlock (mergeDockerignore original excludes).1 = (original, true) ∧
      mergeDockerignore (mergeDockerignore original excludes).1 excludes =
        ((mergeDockerignore original excludes).1, false)) ↔
      (original = [] ∨ original.getLast? = some nl) ∧ OneLine excludes := by
  rw [strip_merge hclean hchanged, merge_eq_self, wanted_merge_eq_nil, Prod.mk.injEq, endLine_eq_self]
  simp

theorem merge_restores_venv :
    stripLeoflowBlock (mergeDockerignore (lit "dist\n") [lit ".venv"]).1 = (lit "dist\n", true) := by
  have hin : before dockerignoreHeader (lit "dist\n") = none ∧ (mergeDockerignore (lit "dist\n") [lit ".venv"]).2 ∧
      (lit "dist\n").getLast? = some nl ∧ ∀ e ∈ [lit ".venv"], expandPattern e = [] ∨ nl ∉ trimSpace e := by
    decide +kernel
  exact ((merge_restores_iff hin.1 hin.2.1).mpr ⟨.inr hin.2.2.1, hin.2.2.2⟩).1

/-- A file without a newline at its end comes back with one. -/
theorem newline_is_added : mergeDockerignore (lit "dist") [] =
        (lit "dist\n" ++ dockerignoreHeader ++ lit "\n.leoflow.generated.Dockerfile\n", true) ∧
      stripLeoflowBlock (mergeDockerignore (lit "dist") []).1 = (lit "dist\n", true) := by
  decide +kernel

/-! ## The final word -/

variable {P : Type} (m : Text → P → Bool)

/-- A path that a form of an entry matches: at the root, at any depth, or below a directory. -/
def Covered (excludes : List Text) (p : P) : Prop := ∃ f ∈ excludes.flatMap expandPattern, m f p

variable {m} {p : P}

theorem foldl_textLines (ls : List Text) (acc : Bool) :
    ls.foldl (verdict m p) acc = (ls.filter (· ≠ [])).foldl (verdict m p) acc := by
  induction ls generalizing acc with
  | nil => rfl
  | cons l ls ih =>
    by_cases hl : l = []
    · rw [filter_cons_of_neg (by simp [hl]), foldl_cons, ih, hl]
      rfl
    · rw [filter_cons_of_pos (by simpa using hl), foldl_cons, foldl_cons, ih]

theorem verdict_plain (h : Plain f) (acc : Bool) : verdict m p acc f = (acc || m f p) := by
  obtain ⟨a, ha, -, hbang, hhash⟩ := h.head
  rw [verdict, h.trimSpace_eq, if_neg, if_neg]
  · rw [ha]
    simpa using hbang
  · rw [ha, not_or]
    exact ⟨by simpa using hhash, h.ne_nil⟩

theorem foldl_plain {ls : List Text} (h : ∀ l ∈ ls, Plain l) (acc : Bool) :
    ls.foldl (verdict m p) acc = (acc || ls.any (m · p)) := by
  induction ls generalizing acc with
  | nil => simp
  | cons l ls ih =>
    rw [forall_mem_cons] at h
    rw [foldl_cons, ih h.2, verdict_plain h.1, any_cons, Bool.or_assoc]

theorem foldl_comments {ls : List Text} (h : ∀ l ∈ ls, l = dockerignoreHeader) (acc : Bool) :
    ls.foldl (verdict m p) acc = acc := by
  induction ls with
  | nil => rfl
  | cons l ls ih =>
    rw [forall_mem_cons] at h
    rw [foldl_cons, h.1, verdict, if_pos (.inl header_text.2.1), ih h.2]

/-- The merged file leaves out what it adds a match for, and what the author's file leaves out. -/
theorem excluded_merge (hone : OneLine excludes) : excluded m (mergeDockerignore original excludes).1 p =
      (excluded m original p || (wanted original excludes).any (m · p)) := by
  obtain ⟨comments, hcomments, hlines⟩ := @textLines_merge excludes original hone
  rw [excluded, foldl_textLines, ← textLines, hlines, foldl_append, foldl_append, foldl_comments hcomments,
    foldl_plain fun l hl => plain_of_wanted hl, textLines, ← foldl_textLines]
  rfl

/-- **`exclude_paths` has the final word exactly where the author's file leaves out by itself every path whose forms are
all lines of it.** -/
theorem final_word_iff (m : Text → P → Bool) (hone : OneLine excludes) :
    (∀ p, Covered m excludes p → excluded m (mergeDockerignore original excludes).1 p) ↔
      ∀ p, Covered m excludes p →
        (∀ f, f ∈ excludes.flatMap expandPattern ∨ f = generatedDockerfileName → m f p → f ∈ existing original) →
          excluded m original p := by
  refine forall_congr' fun p => imp_congr_right fun _ => ?_
  rw [excluded_merge hone, Bool.or_eq_true, any_eq_true]
  simp only [mem_wanted]
  constructor
  · rintro (hown | ⟨f, ⟨hf, hnew⟩, hm⟩) hall
    · exact hown
    · exact absurd (hall f hf hm) hnew
  · intro h
    by_contra hno
    rw [not_or] at hno
    exact hno.1 (h fun f hf hm => by_contra fun hnew => hno.2 ⟨f, ⟨hf, hnew⟩, hm⟩)

/-- A matcher for the patterns below. -/
def demoMatch (pat p : Text) : Bool :=
  pat == p || (lit ".pem").isSuffixOf p && (pat == lit "**/*.pem" || pat == lit "*.pem" && !p.contains (.char '/'))

theorem final_word_pem : Covered demoMatch [lit "*.pem"] (lit "a.pem") ∧
    excluded demoMatch (mergeDockerignore [] [lit "*.pem"]).1 (lit "a.pem") := by
  have hin : Covered demoMatch [lit "*.pem"] (lit "a.pem") := by unfold Covered; decide
  refine ⟨hin, (final_word_iff demoMatch (by unfold OneLine; decide)).mpr (fun p hp hall => ?_) _ hin⟩
  obtain ⟨f, hf, hm⟩ := hp
  have hempty : f = [] := by simpa [existing, trimSpace, Lib.strip] using hall f (.inl hf) hm
  exact absurd hempty (plain_of_entry (.inl hf)).ne_nil

/-- Both forms of the entry are lines before the author's exception, so nothing is added after it. -/
theorem exception_has_final_word :
    let original := lit "*.pem\n**/*.pem\n!a.pem\n"
    Covered demoMatch [lit "*.pem"] (lit "a.pem") ∧
      excluded demoMatch (mergeDockerignore original [lit "*.pem"]).1 (lit "a.pem") = false := by
  unfold Covered
  decide +kernel

end Leoflow.Cli.Ignore
