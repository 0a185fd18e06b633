import SourceSurvey.Proofs.Pattern.Search

/-!
# Repetitions and options

What stands in front of a declaration is a row of optional words and of repeated pieces. Main
statements: a repeated pattern takes one text after the other as long as it can be read, and an option
that cannot be read is skipped.
-/

namespace SourceSurvey.Pattern

/-! ## Repetition -/

section Repetition

variable {α : Type} {p : Pattern α} {IsRest : List Char → Prop} {taken : List (List Char × α)}
  {rest : List Char}

/-- What remains behind the first of the texts taken is again texts and a rest. -/
theorem isRest_flatMap (htaken : ∀ x ∈ taken, ∀ more, IsRest more → IsRest (x.1 ++ more))
    (hrest : IsRest rest) : IsRest (taken.flatMap Prod.fst ++ rest) := by
  induction taken with
  | nil => exact hrest
  | cons x taken ih =>
    rw [List.flatMap_cons, List.append_assoc]
    exact htaken x List.mem_cons_self _ (ih fun y hy => htaken y (List.mem_cons_of_mem x hy))

/-- A repetition takes what its steps take one after the other, up to where the pattern is refused.
-/
theorem takes_manyUpTo (hstep : ∀ x ∈ taken, ∀ more, IsRest more → p.Takes (x.1 ++ more) x.2 more)
    (htaken : ∀ x ∈ taken, ∀ more, IsRest more → IsRest (x.1 ++ more)) (hrest : IsRest rest)
    (hstop : p.Refuses rest) {n : Nat} (hn : taken.length ≤ n) :
    (manyUpTo p n).Takes (taken.flatMap Prod.fst ++ rest) (taken.map Prod.snd) rest := by
  induction taken generalizing n with
  | nil =>
    cases n with
    | zero => exact takes_pure [] rest
    | succ n => exact (hstop.bind _).takes_orElse (takes_pure [] rest)
  | cons x taken ih =>
    cases n with
    | zero => exact absurd hn (Nat.not_succ_le_zero _)
    | succ n =>
      have hothers := fun y hy => htaken y (List.mem_cons_of_mem x hy)
      have hmore := isRest_flatMap hothers hrest
      have hfirst := hstep x List.mem_cons_self _ hmore
      have hnext := ih (fun y hy => hstep y (List.mem_cons_of_mem x hy)) hothers
        (Nat.le_of_succ_le_succ hn)
      rw [List.flatMap_cons, List.append_assoc]
      exact (hfirst.bind (hnext.bind (takes_pure (x.2 :: taken.map Prod.snd) rest))).orElse _

/-- A repeated pattern takes one text after the other, up to a rest that it cannot begin with. -/
theorem takes_many (hne : ∀ x ∈ taken, x.1 ≠ [])
    (hstep : ∀ x ∈ taken, ∀ more, IsRest more → p.Takes (x.1 ++ more) x.2 more)
    (htaken : ∀ x ∈ taken, ∀ more, IsRest more → IsRest (x.1 ++ more)) (hrest : IsRest rest)
    (hstop : p.Refuses rest) :
    (many p).Takes (taken.flatMap Prod.fst ++ rest) (taken.map Prod.snd) rest := by
  have hlength : taken.length ≤ (taken.flatMap Prod.fst ++ rest).length := by
    clear hstep htaken
    induction taken with
    | nil => exact Nat.zero_le _
    | cons x taken ih =>
      have hfirst := List.length_pos_iff.mpr (hne x List.mem_cons_self)
      have hothers := ih fun y hy => hne y (List.mem_cons_of_mem x hy)
      rw [List.flatMap_cons, List.append_assoc, List.length_append, List.length_cons]
      omega
  exact takes_manyUpTo hstep htaken hrest hstop hlength

/-- Of several words the one that stands at the front is taken if no other one begins it. -/
theorem takes_oneOf {words : List String} {w : String} (hmem : w ∈ words)
    (hother : ∀ v ∈ words, v ≠ w → ¬ v.toList <+: w.toList ++ rest) :
    (oneOf words).Takes (w.toList ++ rest) w rest := by
  induction words with
  | nil => cases hmem
  | cons v words ih =>
    by_cases heq : v = w
    · subst heq
      exact ((takes_lit v rest).bind (takes_pure v rest)).orElse _
    · have hrest := (List.mem_cons.mp hmem).resolve_left (Ne.symm heq)
      have hrefuses := refuses_lit (hother v List.mem_cons_self heq)
      exact (hrefuses.bind _).takes_orElse
        (ih hrest fun u hu => hother u (List.mem_cons_of_mem v hu))

/-- One of some words is read as it is written. -/
theorem reads_oneOf (words : List String) :
    (oneOf words).Reads fun t w => t = w.toList ∧ w ∈ words := by
  induction words with
  | nil =>
    intro c r hr
    cases hr
  | cons v words ih =>
    refine Reads.orElse ?_ (ih.imp fun t w h => ⟨h.1, List.mem_cons_of_mem v h.2⟩)
    refine (reads_lit v).bind fun t _ ht => reads_pure ⟨?_, List.mem_cons_self⟩
    rw [List.append_nil, ht]

end Repetition

/-! ## Options -/

section Options

variable {α β : Type} {p q : Pattern α} {f : α → Pattern β} {t rest rest' : List Char} {a : α}
  {b : β}

/-- An alternative is refused where both of its patterns are. -/
theorem Refuses.orElse (hp : p.Refuses t) (hq : q.Refuses t) : (p <|> q).Refuses t := by
  intro prev
  rw [toList_orElse, hp, hq]
  rfl

/-- The one way to read the text takes nothing of it. -/
def Skips (p : Pattern α) (t : List Char) (a : α) : Prop :=
  ∀ prev, (p ⟨prev, t⟩).toList = [(a, ⟨prev, t⟩)]

/-- What is skipped takes nothing. -/
theorem Skips.takes (h : p.Skips t a) : p.Takes t a t := by
  intro prev
  refine ⟨prev, ?_⟩
  rw [Choices.first?_eq_head?, h]
  rfl

/-- A sequence skips what its parts skip. -/
theorem Skips.bind (hp : p.Skips t a) (hf : (f a).Skips t b) : (p >>= f).Skips t b := by
  intro prev
  rw [toList_bind, hp, List.flatMap_singleton, hf]

/-- It is refused where its second part is, if its first part skips. -/
theorem Skips.refuses_bind (hp : p.Skips t a) (hf : (f a).Refuses t) : (p >>= f).Refuses t := by
  intro prev
  rw [toList_bind, hp, List.flatMap_singleton, hf]

theorem skips_pure (a : α) (t : List Char) : (pure a : Pattern α).Skips t a := fun _ => rfl

/-- Blanks are skipped where there are none. -/
theorem skips_blanks (h : t.head?.any Text.isSpace = false) : blanks.Skips t () := by
  have hnone : t.takeWhile Text.isSpace = [] := by
    cases t with
    | nil => rfl
    | cons c cs => exact List.takeWhile_cons_of_neg (by simpa using h)
  have hrun : (run Text.isSpace 0).Skips t [] := by
    intro prev
    show (longestFirst 0 (t.takeWhile Text.isSpace).length ⟨prev, t⟩).toList = _
    rw [hnone]
    rfl
  exact hrun.bind (skips_pure () t)

theorem Refuses.skips_opt (h : p.Refuses t) : (Pattern.opt p).Skips t none := by
  intro prev
  rw [Pattern.opt, toList_orElse, (h.bind _) prev]
  rfl

/-- What is read in one way is taken in front of a boundary. -/
theorem takes_wordBoundary_bind {p : Pattern Unit} {word : List Char} {f : Unit → Pattern β}
    (hp : ∀ prev, (p ⟨prev, word ++ rest⟩).toList = [((), ⟨word.getLast?.or prev, rest⟩)])
    (hword : word.getLast?.any Text.isWord = true) (hrest : rest.head?.any Text.isWord = false)
    (hf : (f ()).Takes rest b rest') :
    (p >>= fun _ => wordBoundary >>= f).Takes (word ++ rest) b rest' := by
  intro prev
  have hends : ((word.getLast?.or prev).any Text.isWord != rest.head?.any Text.isWord) = true := by
    rw [hrest]
    cases hlast : word.getLast? with
    | none =>
      rw [hlast] at hword
      cases hword
    | some c =>
      rw [hlast] at hword
      rw [Option.some_or, hword]
      rfl
  obtain ⟨last, hfirst⟩ := hf (word.getLast?.or prev)
  refine ⟨last, ?_⟩
  rw [Choices.first?_eq_head?, toList_bind, hp, List.flatMap_singleton, ← Choices.first?_eq_head?]
  exact (first?_checkAt_bind hends f).trans hfirst

/-- A word is taken where it ends. -/
theorem takes_lit_wordBoundary_bind {w : String} {f : Unit → Pattern β}
    (hw : w.toList.getLast?.any Text.isWord = true) (hrest : rest.head?.any Text.isWord = false)
    (hf : (f ()).Takes rest b rest') :
    (lit w >>= fun _ => wordBoundary >>= f).Takes (w.toList ++ rest) b rest' := by
  refine takes_wordBoundary_bind (fun prev => ?_) hw hrest hf
  rw [lit, text, if_pos (List.isPrefixOf_iff_prefix.mpr (List.prefix_append _ _)),
    Cursor.advance_append]
  rfl

end Options

end SourceSurvey.Pattern
