import SourceSurvey.Proofs.Extract.Branch
import SourceSurvey.Proofs.Extract.Line
import SourceSurvey.Proofs.Extract.Modifier

/-!
# Spellings of a function

A function outside all braces is declared by name, or a constant is assigned an arrow or a function
expression. Main statements: up to the list of parameters each spelling is read with its name and with
what is assigned, and behind the list the result is read in front of the signs of any spelling.
-/

namespace SourceSurvey

namespace Extract

open Pattern

/-! ## Words in front of a declaration -/

theorem not_isPrefix_cons {c d : Char} (h : c ≠ d) (cs t : List Char) : ¬ c :: cs <+: d :: t :=
  fun hpart => h (List.cons_prefix_cons.mp hpart).1

/-- A text that begins with another character has no such word in front. -/
theorem skips_optWord {w : String} {c d : Char} {cs : List Char} (hw : w.toList = c :: cs)
    (hne : c ≠ d) (t : List Char) : (optWord w).Skips (d :: t) false := by
  have hword : ¬ w.toList <+: d :: t := hw ▸ not_isPrefix_cons hne cs t
  exact ((refuses_lit hword).bind fun _ => blanks1).skips_opt.bind (skips_pure false (d :: t))

/-- The pattern for a word that may be missing takes it with the blank behind it. -/
theorem takes_optWord (w : String) {rest : List Char} (h : rest.head?.any Text.isSpace = false) :
    (optWord w).Takes (w.toList ++ ' ' :: rest) true rest := by
  have hword : (do lit w; blanks1 : Pattern Unit).Takes (w.toList ++ ([' '] ++ rest)) () rest :=
    (takes_lit w _).bind (takes_blanks1 (by decide) Text.isSpace_of_mem_blank h)
  exact hword.opt.bind (takes_pure true rest)

namespace JavaScript

/-- The word of an asynchronous function. -/
def asyncText (isAsync : Bool) : List Char :=
  if isAsync then "async ".toList else []

/-- The pattern for `async` takes it where it stands, and nothing elsewhere. -/
theorem takes_async (isAsync : Bool) {c : Char} {rest : List Char} (hc : Text.isSpace c = false)
    (hne : 'a' ≠ c) :
    (optWord "async").Takes (asyncText isAsync ++ c :: rest) isAsync (c :: rest) := by
  cases isAsync with
  | false => exact (skips_optWord rfl hne rest).takes
  | true => exact takes_optWord "async" hc

/-- The three ways to write a function outside all braces. -/
inductive Spelling where
  /-- The function is declared by name. -/
  | declaration
  /-- A constant is assigned an arrow. -/
  | arrow
  /-- A constant is assigned a function expression. -/
  | expression

namespace Spelling

/-- What stands in front of the list of parameters. -/
def front (isAsync : Bool) (name : List Char) : Spelling → List Char
  | declaration => asyncText isAsync ++ ("function ".toList ++ name)
  | arrow => "const ".toList ++ (name ++ (" = ".toList ++ asyncText isAsync))
  | expression =>
    "const ".toList ++ (name ++ (" = ".toList ++ (asyncText isAsync ++ "function ".toList)))

/-- What stands between the result and the brace of the body. -/
def signs : Spelling → List Char
  | arrow => " => ".toList
  | _ => [' ']

end Spelling

section Starts

variable (isAsync : Bool) (name : Word Text.isNameChar) (more : List Char)

/-- A name begins with no character of a class without name characters. -/
theorem head?_name_append {p : Char → Bool} (hp : ∀ c, Text.isNameChar c = true → p c = false) :
    (name.text ++ more).head?.any p = false := by
  obtain ⟨c, cs, htext⟩ := List.exists_cons_of_ne_nil name.ne_nil
  rw [htext]
  exact hp c (name.chars c (htext ▸ List.mem_cons_self))

/-- What a declaration has behind the words that mark it. -/
def declaredName (isAsync : Bool) : Pattern (Bool × List Char) := do
  lit "function"
  blanks
  let _ ← opt (lit "*")
  blanks
  let bound ← JavaScript.name
  blanks
  typeParameters
  blanks
  lit "("
  return (isAsync, bound)

theorem functionStart_eq : functionStart = (do
    blanks
    let _ ← optWord "export"
    let _ ← optWord "default"
    let _ ← optWord "declare"
    let isAsync ← optWord "async"
    declaredName isAsync) := rfl

/-- Behind `function` the pattern takes the name up to the parenthesis. -/
theorem takes_declaredName : (declaredName isAsync).Takes
    ("function".toList ++ ([' '] ++ (name.text ++ '(' :: more))) (isAsync, name.text) more := by
  have hname : ∀ {p : Char → Bool}, (∀ c, Text.isNameChar c = true → p c = false) →
      (name.text ++ '(' :: more).head?.any p = false := head?_name_append name _
  have hsolid := hname fun _ => Text.isSpace_eq_false_of_isNameChar
  have hstar : ¬ "*".toList <+: name.text ++ '(' :: more := by
    rintro ⟨_, hmore⟩
    have hhead := hname fun c (hc : Text.isNameChar c = true) =>
      beq_eq_false_iff_ne.mpr (Text.ne_of_class hc (by decide : Text.isNameChar '*' = false))
    rw [← hmore] at hhead
    cases hhead
  have hangle : ¬ "<".toList <+: '(' :: more := not_isPrefix_cons (by decide) _ _
  have htype : typeParameters.Takes ('(' :: more) () ('(' :: more) :=
    ((refuses_lit hangle).bind _).opt.bind (takes_pure () _)
  have hblanks : blanks.Takes ('(' :: more) () ('(' :: more) := (skips_blanks rfl).takes
  have hparen : Pattern.Takes (do
      blanks
      typeParameters
      blanks
      lit "("
      return (isAsync, name.text)) ('(' :: more) (isAsync, name.text) more :=
    hblanks.bind (htype.bind (hblanks.bind ((takes_lit "(" more).bind (takes_pure _ more))))
  exact (takes_lit "function" _).bind ((takes_blanks Text.isSpace_of_mem_blank hsolid).bind
    ((refuses_lit hstar).opt.bind ((skips_blanks hsolid).takes.bind
    ((takes_run name.chars (List.length_pos_iff.mpr name.ne_nil) rfl).bind hparen))))

/-- No other mark stands in front of a function. -/
theorem takes_functionStart {c : Char} (hc : c = 'a' ∨ c = 'f') {cs rest : List Char}
    {r : Bool × List Char} (h : (optWord "async" >>= declaredName).Takes (c :: cs) r rest) :
    functionStart.Takes (c :: cs) r rest := by
  have hskip : ∀ {w : String} {d : Char} {ds : List Char}, w.toList = d :: ds → d ≠ 'a' → d ≠ 'f' →
      (optWord w).Takes (c :: cs) false (c :: cs) := by
    intro w d ds hw ha hf
    refine (skips_optWord hw ?_ cs).takes
    rcases hc with rfl | rfl
    · exact ha
    · exact hf
  have hspace : (c :: cs).head?.any Text.isSpace = false := by
    rcases hc with rfl | rfl <;> rfl
  rw [functionStart_eq]
  exact (skips_blanks hspace).takes.bind ((hskip rfl (by decide) (by decide)).bind
    ((hskip rfl (by decide) (by decide)).bind ((hskip rfl (by decide) (by decide)).bind h)))

/-- A declaration is read with its name. -/
theorem functionStart_declaration :
    functionStart.matchStart? (Spelling.declaration.front isAsync name.text ++ '(' :: more) =
      some (isAsync, name.text) := by
  have hdeclared := takes_declaredName isAsync name more
  have hmark := (takes_async isAsync (by decide) (by decide)).bind hdeclared
  have htext : Spelling.declaration.front isAsync name.text ++ '(' :: more =
      asyncText isAsync ++ ("function".toList ++ ([' '] ++ (name.text ++ '(' :: more))) := by
    show asyncText isAsync ++ ("function ".toList ++ name.text) ++ '(' :: more = _
    rw [List.append_assoc]
    rfl
  rw [htext]
  refine Takes.matchStart? (?_ : functionStart.Takes _ _ more)
  cases isAsync with
  | false => exact takes_functionStart (.inr rfl) hmark
  | true => exact takes_functionStart (.inl rfl) hmark

/-- No declaration begins with the word of a constant. -/
theorem functionStart_const : functionStart.matchStart? ("const ".toList ++ more) = none := by
  have hskip : ∀ {w : String} {c : Char} {cs : List Char}, w.toList = c :: cs → c ≠ 'c' →
      (optWord w).Skips ("const ".toList ++ more) false := fun hw hne => skips_optWord hw hne _
  have hfunction : ¬ "function".toList <+: "const ".toList ++ more :=
    not_isPrefix_cons (by decide) _ _
  refine Refuses.matchStart? ?_
  unfold functionStart
  exact (skips_blanks rfl).refuses_bind ((hskip rfl (by decide)).refuses_bind
    ((hskip rfl (by decide)).refuses_bind ((hskip rfl (by decide)).refuses_bind
    ((hskip rfl (by decide)).refuses_bind ((refuses_lit hfunction).bind _)))))

/-- What a constant is assigned, behind the equals sign. -/
def assignedFunction (bound : List Char) : Pattern (List Char × Bool × Assigned) := do
  blanks
  let isAsync ← optWord "async"
  let kind ← assigned
  return (bound, isAsync, kind)

theorem functionConstant_eq : functionConstant = (do
    blanks
    let _ ← optWord "export"
    let _ ← oneOf ["const", "let", "var"]
    blanks1
    let bound ← JavaScript.name
    blanks
    assignedType
    lit "="
    assignedFunction bound) := rfl

/-- A constant is read up to what it is assigned. -/
theorem takes_functionConstant {rest : List Char} {r : List Char × Bool × Assigned}
    (h : (assignedFunction name.text).Takes more r rest) :
    functionConstant.Takes ("const".toList ++ ([' '] ++ (name.text ++ ([' '] ++
      ("=".toList ++ more))))) r rest := by
  have hsolid : (name.text ++ ([' '] ++ ("=".toList ++ more))).head?.any Text.isSpace = false :=
    head?_name_append name _ fun _ => Text.isSpace_eq_false_of_isNameChar
  have hcolon : ¬ ":".toList <+: "=".toList ++ more := not_isPrefix_cons (by decide) _ _
  have htype : assignedType.Takes ("=".toList ++ more) () ("=".toList ++ more) :=
    ((refuses_lit hcolon).bind _).opt.bind (takes_pure () _)
  have hword : ∀ more, (oneOf ["const", "let", "var"]).Takes ("const".toList ++ more) "const" more :=
    fun more => ((takes_lit "const" more).bind (takes_pure "const" more)).orElse _
  rw [functionConstant_eq]
  exact (skips_blanks rfl).takes.bind ((skips_optWord rfl (by decide) _).takes.bind
    ((hword _).bind ((takes_blanks1 (by decide) Text.isSpace_of_mem_blank hsolid).bind
    ((takes_run name.chars (List.length_pos_iff.mpr name.ne_nil) rfl).bind
    ((takes_blanks Text.isSpace_of_mem_blank rfl).bind (htype.bind
    ((takes_lit "=" more).bind h)))))))

/-- An open parenthesis is taken as the start of an arrow function. -/
theorem takes_assigned_arrow : assigned.Takes ('(' :: more) .arrow more := by
  have hfunction : ¬ "function".toList <+: '(' :: more := not_isPrefix_cons (by decide) _ _
  exact ((refuses_lit hfunction).bind _).takes_orElse
    (((takes_lit "(" more).bind (takes_pure Assigned.arrow more)).orElse _)

/-- The word `function` and a parenthesis are taken as the start of a function expression. -/
theorem takes_assigned_expression :
    assigned.Takes ("function".toList ++ ([' '] ++ '(' :: more)) .expression more := by
  have hblank : ∀ c ∈ [' '], (c != '(') = true :=
    List.forall_mem_singleton.mpr (by decide)
  have hlist : Pattern.Takes (do
      let _ ← run (· != '(') 0
      lit "("
      return Assigned.expression) ([' '] ++ '(' :: more) .expression more :=
    (takes_run hblank (Nat.zero_le _) rfl).bind ((takes_lit "(" more).bind (takes_pure _ more))
  exact Takes.orElse (takes_lit_wordBoundary_bind rfl rfl hlist) _

/-- A constant with an arrow function is matched as such. -/
theorem functionConstant_arrow :
    functionConstant.matchStart? (Spelling.arrow.front isAsync name.text ++ '(' :: more) =
      some (name.text, isAsync, .arrow) := by
  have hassigned : (assignedFunction name.text).Takes ([' '] ++ (asyncText isAsync ++ '(' :: more))
      (name.text, isAsync, .arrow) more := by
    have hsolid : (asyncText isAsync ++ '(' :: more).head?.any Text.isSpace = false := by
      cases isAsync <;> rfl
    exact (takes_blanks Text.isSpace_of_mem_blank hsolid).bind
      ((takes_async isAsync (by decide) (by decide)).bind
      ((takes_assigned_arrow more).bind (takes_pure _ more)))
  have htext : Spelling.arrow.front isAsync name.text ++ '(' :: more =
      "const".toList ++ ([' '] ++ (name.text ++ ([' '] ++ ("=".toList ++
        ([' '] ++ (asyncText isAsync ++ '(' :: more)))))) := by
    show "const ".toList ++ (name.text ++ (" = ".toList ++ asyncText isAsync)) ++ '(' :: more = _
    simp only [List.append_assoc]
    rfl
  rw [htext]
  exact (takes_functionConstant name _ hassigned).matchStart?

/-- A constant with a function expression is matched as such. -/
theorem functionConstant_expression :
    functionConstant.matchStart? (Spelling.expression.front isAsync name.text ++ '(' :: more) =
      some (name.text, isAsync, .expression) := by
  have hassigned : (assignedFunction name.text).Takes ([' '] ++ (asyncText isAsync ++
      ("function".toList ++ ([' '] ++ '(' :: more)))) (name.text, isAsync, .expression) more := by
    have hsolid : (asyncText isAsync ++ ("function".toList ++ ([' '] ++ '(' :: more))).head?.any
        Text.isSpace = false := by
      cases isAsync <;> rfl
    exact (takes_blanks Text.isSpace_of_mem_blank hsolid).bind
      ((takes_async isAsync (by decide) (by decide)).bind
      ((takes_assigned_expression more).bind (takes_pure _ more)))
  have htext : Spelling.expression.front isAsync name.text ++ '(' :: more =
      "const".toList ++ ([' '] ++ (name.text ++ ([' '] ++ ("=".toList ++ ([' '] ++
        (asyncText isAsync ++ ("function".toList ++ ([' '] ++ '(' :: more)))))))) := by
    show "const ".toList ++ (name.text ++ (" = ".toList ++ (asyncText isAsync ++
      "function ".toList))) ++ '(' :: more = _
    simp only [List.append_assoc]
    rfl
  rw [htext]
  exact (takes_functionConstant name _ hassigned).matchStart?

end Starts

/-! ## The result -/

/-- A character of a result. -/
def isResultChar (c : Char) : Bool :=
  !"\"'\x60()\x7b\x7d;=".toList.contains c

/-- The result of a function as it is written. -/
structure ResultText where
  text : List Char
  tight : Text.Tight text
  chars : ∀ c ∈ text, isResultChar c = true
  free : CommentFree text

/-- What stands behind the list of parameters. -/
def resultPart (result : Option ResultText) : List Char :=
  (result.map fun r => ": ".toList ++ r.text).getD []

/-- How a result ends. -/
def typeEnd : Pattern Unit := lit "=>" <|> lit "\x7b" <|> lit ";" <|> atEnd

theorem returnType_eq : returnType = (do
    blanks
    lit ":"
    blanks
    let type ← runLazy (fun c => c != '\x7b' && c != ';') 1
    blanks
    typeEnd
    return type) := rfl

namespace ResultText

variable (r : ResultText) {rest : List Char}

/-- A sign that stands in no type is not in the result type. -/
theorem ne_of_mem {c d : Char} (hc : c ∈ r.text) (hd : isResultChar d = false) : c ≠ d :=
  Text.ne_of_class (r.chars c hc) hd

/-- A result does not end within itself. -/
theorem refuses_typeEnd {n : Nat} (hn : n < r.text.length) (hrest : rest ≠ []) :
    Pattern.Refuses (do
      blanks
      typeEnd
      return r.text.take n) (r.text.drop n ++ rest) := by
  obtain ⟨ds, d, hlast, hd⟩ := r.tight.last
  have hdrop : r.text.drop n = ds.drop n ++ [d] := by
    rw [hlast, List.length_append, List.length_singleton] at hn
    rw [hlast, List.drop_append_of_le_length (by omega)]
  refine reads_blanks.refuses_bind fun front back _ hsplit hblanks => Refuses.bind ?_ _
  -- blanks end before the last character, so what follows begins with one of the result
  have hback : ∃ c more, back = c :: more ∧ c ∈ r.text ∧ more ≠ [] := by
    have hmem : ∀ c ∈ ds.drop n ++ [d], c ∈ r.text := fun c hc =>
      List.mem_of_mem_drop (hdrop ▸ hc)
    rw [hdrop, List.append_assoc, List.singleton_append] at hsplit
    rcases List.append_eq_append_iff.mp hsplit with ⟨between, rfl, hafter⟩ | ⟨between, hds, rfl⟩
    · cases between with
      | nil => exact ⟨d, rest, hafter.symm, hmem d (by simp), hrest⟩
      | cons e es =>
        obtain ⟨rfl, -⟩ := List.cons.inj hafter
        rw [hblanks d (by simp)] at hd
        cases hd
    · cases between with
      | nil => exact ⟨d, rest, rfl, hmem d (by simp), hrest⟩
      | cons e es => exact ⟨e, es ++ d :: rest, rfl, hmem e (by rw [hds]; simp), by simp⟩
  obtain ⟨c, more, rfl, hc, hmore⟩ := hback
  have hsign : ∀ {w : String} {e : Char} {es : List Char}, w.toList = e :: es →
      isResultChar e = false → (lit w).Refuses (c :: more) := fun hw he =>
    refuses_lit (hw ▸ not_isPrefix_cons (r.ne_of_mem hc he).symm _ _)
  exact (hsign rfl (by decide)).orElse ((hsign rfl (by decide)).orElse
    ((hsign rfl (by decide)).orElse (refuses_atEnd (List.cons_ne_nil _ _) fun hfeed =>
      hmore (List.cons.inj hfeed).2)))

/-- A result type begins with no blank. -/
theorem head?_append (more : List Char) : (r.text ++ more).head?.any Text.isSpace = false := by
  obtain ⟨c, cs, hfirst, hc⟩ := r.tight.first
  rw [hfirst]
  exact hc

/-- A result is read up to the signs behind it. -/
theorem takes_returnType {sign : Char} {more after : List Char} (hsign : Text.isSpace sign = false)
    (hend : typeEnd.Takes (sign :: more) () after) :
    returnType.Takes (": ".toList ++ (r.text ++ ([' '] ++ sign :: more))) r.text after := by
  have hchars : ∀ c ∈ r.text, (c != '\x7b' && c != ';') = true := by
    intro c hc
    rw [Bool.and_eq_true, bne_iff_ne, bne_iff_ne]
    exact ⟨r.ne_of_mem hc (by decide), r.ne_of_mem hc (by decide)⟩
  have hsolid : (sign :: more).head?.any Text.isSpace = false := hsign
  have hclosed : Pattern.Takes (do
      blanks
      typeEnd
      return r.text) ([' '] ++ sign :: more) r.text after :=
    (takes_blanks Text.isSpace_of_mem_blank hsolid).bind (hend.bind (takes_pure r.text after))
  rw [returnType_eq]
  refine (skips_blanks rfl).takes.bind ((takes_lit ":" _).bind
    ((takes_blanks Text.isSpace_of_mem_blank (r.head?_append _)).bind (takes_runLazy_bind hchars
    (List.length_pos_iff.mpr r.tight.ne_nil) (fun n _ hn => ?_) hclosed)))
  exact r.refuses_typeEnd hn (List.cons_ne_nil ' ' (sign :: more))

end ResultText

/-- The result type is read as it was written, with the signs of any spelling behind it. -/
theorem returnType_resultPart (result : Option ResultText) (spelling : Spelling) :
    returnType.matchStart? (resultPart result ++ (spelling.signs ++ ['\x7b'])) =
      result.map (·.text) := by
  cases result with
  | none => cases spelling <;> rfl
  | some r =>
    have hbrace : typeEnd.Takes ['\x7b'] () [] := by
      have harrow : ¬ "=>".toList <+: ['\x7b'] := not_isPrefix_cons (by decide) _ _
      exact (refuses_lit harrow).takes_orElse ((takes_lit "\x7b" []).orElse _)
    have harrow : typeEnd.Takes "=> \x7b".toList () " \x7b".toList :=
      (takes_lit "=>" " \x7b".toList).orElse _
    have htext : resultPart (some r) ++ (spelling.signs ++ ['\x7b']) =
        ": ".toList ++ (r.text ++ (spelling.signs ++ ['\x7b'])) := List.append_assoc ..
    rw [htext]
    cases spelling with
    | declaration => exact (r.takes_returnType (by decide) hbrace).matchStart?
    | arrow => exact (r.takes_returnType (by decide) harrow).matchStart?
    | expression => exact (r.takes_returnType (by decide) hbrace).matchStart?

/-- An arrow has its sign behind the result. -/
theorem arrowTail_resultPart (result : Option ResultText) :
    arrowTail.matches? (resultPart result ++ (Spelling.arrow.signs ++ ['\x7b'])) = true := by
  cases result with
  | none => rfl
  | some r =>
    have hchars : ∀ c ∈ r.text, (c != '=') = true := fun c hc =>
      bne_iff_ne.mpr (r.ne_of_mem hc (by decide))
    have htype : Pattern.CanTake (do
        lit ":"
        blanks
        runLazy (· != '=') 1) (":".toList ++ ([' '] ++ (r.text ++ " => \x7b".toList))) r.text
        " => \x7b".toList :=
      (takes_lit ":" _).canTake.bind ((canTake_blanks Text.isSpace_of_mem_blank _).bind
        (canTake_runLazy hchars (List.length_pos_iff.mpr r.tight.ne_nil) _))
    have hblank : blanks.CanTake " => \x7b".toList () "=> \x7b".toList :=
      canTake_blanks Text.isSpace_of_mem_blank _
    have htail : arrowTail.CanTake (":".toList ++ ([' '] ++ (r.text ++ " => \x7b".toList))) ()
        " \x7b".toList := by
      unfold arrowTail
      exact (canTake_no_blanks _).bind (htype.opt.bind (hblank.bind (takes_lit "=>" _).canTake))
    have htext : resultPart (some r) ++ (Spelling.arrow.signs ++ ['\x7b']) =
        ":".toList ++ ([' '] ++ (r.text ++ " => \x7b".toList)) := List.append_assoc ..
    obtain ⟨first, hfirst⟩ := htail.exists_first? none
    rw [htext, matches?, matchStart?, Cursor.start, hfirst]
    rfl

/-! ## What stands around the list -/

/-- A result type with the signs of a spelling can stand between a list and a body. -/
theorem isBetweenText_resultPart (result : Option ResultText) (spelling : Spelling) :
    IsBetweenText (resultPart result ++ spelling.signs) := by
  have hsigns : spelling.signs.all isBetween = true ∧ '/' ∉ spelling.signs ∧
      ContinuesPlain spelling.signs := by
    cases spelling <;> exact ⟨by decide, by decide, by decide, by decide⟩
  have hfree := commentFree_of_not_mem hsigns.2.1
  cases result with
  | none => exact ⟨List.all_eq_true.mp hsigns.1, hfree⟩
  | some r =>
    have hresult : ∀ c ∈ r.text, isBetween c = true := by
      intro c hc
      have hchar := r.chars c hc
      simp [isResultChar] at hchar
      simp [isBetween, hchar]
    refine ⟨fun c hc => ?_, ?_⟩
    · rcases List.mem_append.mp hc with hc | hc
      · rcases List.mem_append.mp hc with hc | hc
        · exact List.all_eq_true.mp (by decide : ": ".toList.all isBetween = true) c hc
        · exact hresult c hc
      · exact List.all_eq_true.mp hsigns.1 c hc
    · exact (CommentFree.append_left (by decide) r.free).append hfree hsigns.2.2

/-- What a spelling puts in front of the list can stand there. -/
theorem isFrontText_front (isAsync : Bool) (name : Word Text.isNameChar) (spelling : Spelling) :
    IsFrontText (spelling.front isAsync name.text) := by
  have hword : ∀ {w : List Char}, w.all isFront = true → ∀ c ∈ w, isFront c = true := fun hw =>
    List.all_eq_true.mp hw
  have hasync : ∀ c ∈ asyncText isAsync, isFront c = true := by
    cases isAsync <;> exact hword (by decide)
  have hname : ∀ c ∈ name.text, isFront c = true := by
    intro c hc
    have hchar := name.chars c hc
    have hbracket : "()\x7b\x7d".toList.all (fun d => !Text.isNameChar d) = true := by decide
    have hnot : c ∉ "()\x7b\x7d".toList := by
      intro hmem
      have hnone := List.all_eq_true.mp hbracket c hmem
      rw [hchar] at hnone
      cases hnone
    rw [isFront, isClear_of_class (by decide) hchar, Bool.true_and, Bool.not_eq_true',
      ← Bool.not_eq_true, List.contains_iff_mem]
    exact hnot
  have happend : ∀ {text more : List Char}, (∀ c ∈ text, isFront c = true) →
      (∀ c ∈ more, isFront c = true) → ∀ c ∈ text ++ more, isFront c = true :=
    fun htext hmore => List.forall_mem_append.mpr ⟨htext, hmore⟩
  cases spelling with
  | declaration =>
    refine ⟨happend hasync (happend (hword (by decide)) hname), ?_⟩
    cases isAsync <;> rfl
  | arrow =>
    exact ⟨happend (hword (by decide)) (happend hname (happend (hword (by decide)) hasync)), rfl⟩
  | expression =>
    exact ⟨happend (hword (by decide)) (happend hname (happend (hword (by decide))
      (happend hasync (hword (by decide))))), rfl⟩

end JavaScript

end Extract

end SourceSurvey
