import LayoutMarkup.Proofs.Layout.Frame
import LayoutMarkup.Proofs.Layout.OrderedUnion
import LayoutMarkup.Proofs.Layout.Reference
import LayoutMarkup.Proofs.Layout.TokenGrammar

/-! Which of the terms of merged settings come to bear. Merging keeps two terms of one name apart
unless they are equal, and all that looks a term up does so by its name. On an element the terms of a
name take the attributes of this name in turn; in a breakpoint only the first complex responder of a
name is asked. So values that a project adds to a name that is built in are out of reach. -/

namespace LayoutMarkup

instance (term : Term) (value : AttributeValue) : Decidable (term.Takes value) :=
  match term with
  | .simple _ => inferInstanceAs (Decidable (value.chars? = some ""))
  | .complex _ values => inferInstanceAs (Decidable (∃ chars ∈ values, value.chars? = some chars))

namespace Element

variable {element : Element} {name : String}

/-- The first attribute of a name and the others, which are those that are left without it. -/
theorem filter_name_of_get? {attr : Attribute} (found : element.get? name = some attr) :
    element.attributes.filter (fun other => other.name = name) =
      attr :: (element.remove name).attributes.filter fun other => other.name = name := by
  obtain ⟨same, before, later, split, skipped⟩ := List.find?_eq_some_iff_append.mp found
  have own : attr.name = name := of_decide_eq_true same
  have others : ∀ other ∈ before, ¬ other.name = name := by simpa using skipped
  rw [remove, split, List.eraseP_append_right _ (by simpa using others),
    List.eraseP_cons_of_pos (by simpa using own), List.filter_append, List.filter_append,
    List.filter_eq_nil_iff.mpr (by simpa using others), List.filter_cons_of_pos (by simpa using own)]
  rfl

theorem filter_name_of_get?_eq_none (absent : element.get? name = none) :
    element.attributes.filter (fun other => other.name = name) = [] :=
  List.filter_eq_nil_iff.mpr (List.find?_eq_none.mp absent)

end Element

/-- The attributes of a name, each with the term that judges it: the first with the first term of the
name, and so on. No term is left for the attributes behind these, and they are not looked at. -/
def judged (terms : List Term) (element : Element) (name : String) : List (Attribute × Term) :=
  (element.attributes.filter fun attr => attr.name = name).zip
    (terms.filter fun term => term.name = name)

/-- Whether each attribute of a name suits the term that judges it. -/
def TakesInTurn (terms : List Term) (element : Element) (name : String) : Prop :=
  ∀ pair ∈ judged terms element name, pair.2.Takes pair.1.value

instance (terms : List Term) (element : Element) (name : String) :
    Decidable (TakesInTurn terms element name) :=
  inferInstanceAs (Decidable (∀ pair ∈ judged terms element name, pair.2.Takes pair.1.value))

section

variable {terms : List Term} {term : Term} {element : Element} {name : String}

theorem judged_cons_of_ne (other : term.name ≠ name) :
    judged (term :: terms) element name = judged terms (element.remove term.name) name := by
  have kept : (element.remove term.name).attributes.filter (fun attr => attr.name = name) =
      element.attributes.filter fun attr => attr.name = name := by
    apply element.filter_remove
    intro attr same
    exact decide_eq_false (same ▸ other)
  rw [judged, judged, kept, List.filter_cons_of_neg (by simpa using other)]

theorem judged_cons_self {attr : Attribute} (found : element.get? term.name = some attr) :
    judged (term :: terms) element term.name =
      (attr, term) :: judged terms (element.remove term.name) term.name := by
  rw [judged, judged, Element.filter_name_of_get? found, List.filter_cons_of_pos (by simp)]
  rfl

theorem judged_of_get?_eq_none (absent : element.get? name = none) (terms : List Term) :
    judged terms element name = [] := by
  rw [judged, Element.filter_name_of_get?_eq_none absent, List.zip_nil_left]

/-- A term that an element does not carry judges nothing. -/
theorem judged_cons_of_get?_eq_none (absent : element.get? term.name = none) :
    judged (term :: terms) element name = judged terms element name := by
  by_cases same : term.name = name
  · rw [← same, judged_of_get?_eq_none absent, judged_of_get?_eq_none absent]
  · rw [judged_cons_of_ne same, Element.remove_of_get?_eq_none absent]

/-- A term that takes the first attribute of its name leaves what the later terms judge. -/
theorem takesInTurn_cons_iff {attr : Attribute} (found : element.get? term.name = some attr)
    (taken : term.Takes attr.value) :
    TakesInTurn (term :: terms) element name ↔
      TakesInTurn terms (element.remove term.name) name := by
  unfold TakesInTurn
  by_cases same : term.name = name
  · subst same
    rw [judged_cons_self found, List.forall_mem_cons]
    exact and_iff_right taken
  · rw [judged_cons_of_ne same]

end

namespace Settings

/-- Whether an element is refused for the value of an attribute of a name. -/
def RefusesValue (settings : Settings) (element : Element) (name : String) : Prop :=
  ∃ error said, (settings.convert element).2 = some error ∧ error.refusal = .attributeValue name said

/-- Whether a name is that of a breakpoint and of a complex responder with a colon between them, as
values within a breakpoint are refused. -/
def Qualifies (settings : Settings) (name : String) : Prop :=
  ∃ breakpoint ∈ settings.breakpoints, ∃ responder values,
    .complex responder values ∈ settings.responders ∧ name = breakpoint.short ++ ":" ++ responder

variable {settings : Settings} {element : Element} {name : String}

/-- Terms that refuse nothing suit the attributes of all names. -/
theorem takesInTurn_of_convertTerms {terms : List Term}
    (accepted : (settings.convertTerms terms element).refusal = none) (name : String) :
    TakesInTurn terms element name := by
  induction terms generalizing element with
  | nil => simp [TakesInTurn, judged]
  | cons term terms ih =>
    rw [convertTerms] at accepted
    cases found : element.get? term.name with
    | none =>
      rw [found] at accepted
      rw [TakesInTurn, judged_cons_of_get?_eq_none found]
      exact ih accepted
    | some attr =>
      simp only [found] at accepted
      rcases term.setting?_eq attr.value with ⟨unset, -⟩ | ⟨set, taken⟩
      · simp [unset] at accepted
      · rw [takesInTurn_cons_iff found taken]
        simp only [set, Conversion.refusal_after] at accepted
        exact ih accepted

/-- What terms refuse is the value of an attribute that does not suit the term in its turn. -/
theorem not_takesInTurn_of_convertTerms {terms : List Term} {refusal : Refusal}
    (refused : (settings.convertTerms terms element).refusal = some refusal) :
    ∃ name said, refusal = .attributeValue name said ∧ ¬ TakesInTurn terms element name := by
  induction terms generalizing element with
  | nil => cases refused
  | cons term terms ih =>
    rw [convertTerms] at refused
    cases found : element.get? term.name with
    | none =>
      rw [found] at refused
      obtain ⟨name, said, shape, untaken⟩ := ih refused
      rw [TakesInTurn, ← judged_cons_of_get?_eq_none found] at untaken
      exact ⟨name, said, shape, untaken⟩
    | some attr =>
      simp only [found] at refused
      rcases term.setting?_eq attr.value with ⟨unset, untaken⟩ | ⟨set, taken⟩
      · simp only [unset, Option.some.injEq] at refused
        refine ⟨term.name, _, refused.symm, ?_⟩
        intro inTurn
        rw [TakesInTurn, judged_cons_self found] at inTurn
        exact untaken (inTurn _ List.mem_cons_self)
      · simp only [set, Conversion.refusal_after] at refused
        obtain ⟨name, said, shape, untaken⟩ := ih refused
        rw [← takesInTurn_cons_iff found taken] at untaken
        exact ⟨name, said, shape, untaken⟩

section

variable {breakpoint : Breakpoint} {said : String}

theorem columnClass_ne_attributeValue (value : Int) :
    settings.columnClass breakpoint value ≠ .error (.attributeValue name said) := by
  unfold columnClass
  split <;> simp

theorem offsetClass_ne_attributeValue (value : Int) :
    settings.offsetClass breakpoint value ≠ .error (.attributeValue name said) := by
  unfold offsetClass
  split <;> simp

/-- The name under which a value within a breakpoint is refused. -/
theorem exists_responder_of_tokenClass {token : List Char}
    (refused : settings.tokenClass breakpoint token = .error (.attributeValue name said)) :
    ∃ responder values, .complex responder values ∈ settings.responders ∧
      name = breakpoint.short ++ ":" ++ responder := by
  unfold tokenClass at refused
  extract_lets word own at refused
  split at refused
  · exact absurd refused (columnClass_ne_attributeValue _)
  split at refused
  · rw [valueClass] at refused
    cases found : settings.complexResponder? (String.ofList own) with
    | none => simp [found] at refused
    | some term =>
      obtain ⟨values, rfl, before, later, shape, -⟩ := exists_first_of_complexResponder? found
      simp only [found] at refused
      split at refused
      · cases refused
      · simp only [Except.error.injEq, Refusal.attributeValue.injEq] at refused
        exact ⟨_, values, by simp [shape], refused.1.symm⟩
  split at refused
  · cases refused
  split at refused
  · split at refused
    · exact absurd refused (offsetClass_ne_attributeValue _)
    · simp at refused
  · simp at refused

theorem exists_token_of_refused {refusal : Refusal} {tokens : List (List Char)}
    (refused : (settings.tokenClasses breakpoint tokens).2 = some refusal) :
    ∃ token ∈ tokens, settings.tokenClass breakpoint token = .error refusal := by
  induction tokens with
  | nil => cases refused
  | cons token tokens ih =>
    rw [tokenClasses] at refused
    cases told : settings.tokenClass breakpoint token with
    | error own =>
      simp only [told, Option.some.injEq] at refused
      exact ⟨token, List.mem_cons_self, told.trans (congrArg _ refused)⟩
    | ok entry =>
      simp only [told] at refused
      obtain ⟨other, member, here⟩ := ih refused
      exact ⟨other, List.mem_cons_of_mem token member, here⟩

end

/-- A value that breakpoints refuse is told under a qualified name. -/
theorem qualifies_of_convertBreakpoints {said : String}
    (refused : (settings.convertBreakpoints settings.breakpoints element).refusal =
      some (.attributeValue name said)) :
    settings.Qualifies name := by
  rw [← convertEntries_breakpoints] at refused
  obtain ⟨before, entry, later, split, -, -, here⟩ := exists_entry_of_refused refused
  have listed : entry ∈ settings.breakpoints.map .breakpoint := by simp [split]
  obtain ⟨breakpoint, known, rfl⟩ := List.mem_map.mp listed
  rw [outcome] at here
  split at here
  · cases here
  · rw [answer] at here
    split at here
    · simp at here
    · obtain ⟨token, -, told⟩ := exists_token_of_refused here
      exact ⟨breakpoint, known, exists_responder_of_tokenClass told⟩

/-- Terms go before breakpoints, so that what they refuse is what is refused. -/
theorem refusal_collect (settings : Settings) (element : Element) :
    (settings.collect element).refusal =
      (settings.convertTerms settings.attributes element).refusal.or
        (settings.convertBreakpoints settings.breakpoints
          (settings.convertTerms settings.attributes element).element).refusal := by
  cases refused : (settings.convertTerms settings.attributes element).refusal <;>
    simp [collect, Conversion.andThen, refused]

theorem refusesValue_iff :
    settings.RefusesValue element name ↔
      ∃ said, (settings.collect element).refusal = some (.attributeValue name said) := by
  simp only [RefusesValue, convert, Option.map_eq_some_iff]
  constructor
  · rintro ⟨error, said, ⟨refusal, refused, rfl⟩, rfl⟩
    exact ⟨said, refused⟩
  · rintro ⟨said, refused⟩
    exact ⟨_, said, ⟨_, refused, rfl⟩, rfl⟩

/-- Of values that suit the terms in their turn none is refused; only a value within a breakpoint can
be, under a name that is spelled the same. -/
theorem qualifies_of_refusesValue (taken : TakesInTurn settings.attributes element name)
    (refused : settings.RefusesValue element name) : settings.Qualifies name := by
  obtain ⟨said, refused⟩ := refusesValue_iff.mp refused
  rw [refusal_collect, Option.or_eq_some_iff] at refused
  rcases refused with early | ⟨-, late⟩
  · obtain ⟨own, _, shape, untaken⟩ := not_takesInTurn_of_convertTerms early
    cases shape
    exact absurd taken untaken
  · exact qualifies_of_convertBreakpoints late

/-- A value that does not suit the term in its turn is refused, unless one of another name is. -/
theorem refusesValue_of_not_takesInTurn (untaken : ¬ TakesInTurn settings.attributes element name)
    (others : ∀ other ≠ name, TakesInTurn settings.attributes element other) :
    settings.RefusesValue element name := by
  cases refused : (settings.convertTerms settings.attributes element).refusal with
  | none => exact absurd (takesInTurn_of_convertTerms refused name) untaken
  | some refusal =>
    obtain ⟨own, said, rfl, fails⟩ := not_takesInTurn_of_convertTerms refused
    have same : own = name := by
      by_contra apart
      exact fails (others own apart)
    subst same
    refine refusesValue_iff.mpr ⟨said, ?_⟩
    rw [refusal_collect, refused, Option.some_or]

end Settings

/-- A word that no blank cuts is one word. -/
theorem blankWords_of_not_blank {word : List Char} (filled : word ≠ [])
    (whole : ∀ c ∈ word, Unicode.isBlank c = false) : blankWords word = [word] := by
  induction word with
  | nil => exact absurd rfl filled
  | cons c rest ih =>
    obtain ⟨here, behind⟩ := List.forall_mem_cons.mp whole
    cases rest with
    | nil => simp [blankWords, here]
    | cons next rest =>
      rw [blankWords, if_neg (by simp [here]), if_neg (by simp [behind next]), ih (by simp) behind]

/-- Neither a digit nor a sign is an equals sign. -/
theorem not_spells_of_equals {word : List Char} (sign : '=' ∈ word) (number : Int) :
    ¬ Spells word number := by
  have free {digits : List Char} (numeral : IsNumeral digits) : '=' ∉ digits := fun member =>
    absurd (numeral.decimal _ member) (by decide)
  intro spelled
  cases spelled with
  | plain numeral => exact free numeral sign
  | plus numeral => exact free numeral (List.mem_of_ne_of_mem (by decide) sign)
  | minus numeral => exact free numeral (List.mem_of_ne_of_mem (by decide) sign)

/-- Whether a term is a complex one of a name. -/
def Term.isValued (name : String) : Term → Bool
  | .simple _ => false
  | .complex own _ => own = name

namespace Settings

variable {defaults : Defaults} {project : Project} {name : String}

theorem complexResponder?_merge :
    (merge defaults project).complexResponder? name =
      (defaults.responders ++ project.responders).find? (Term.isValued name) :=
  find?_orderedUnion (Term.isValued name) _ _

/-- The token that sets a responder to a value. -/
theorem tokenClass_of_setting {settings : Settings} {breakpoint : Breakpoint} {value : String}
    {values : List String} (first : '=' ∉ name.toList)
    (found : settings.complexResponder? name = some (.complex name values)) :
    settings.tokenClass breakpoint (name ++ "=" ++ value).toList =
      if value ∈ values then .ok ⟨.responder, settings.classNames.responder breakpoint name (some value)⟩
      else .error (.attributeValue (breakpoint.short ++ ":" ++ name) value) := by
  have split : (name ++ "=" ++ value).toList = name.toList ++ '=' :: value.toList := by simp
  have sign : '=' ∈ (name ++ "=" ++ value).toList := by simp [split]
  rw [tokenClass_of_split (not_spells_of_equals sign) split first]
  simp only [String.ofList_toList, valueClass, found, Term.allows, List.contains_iff_mem]

/-- On an element that carries a name once, the first of the merged terms is the one that counts. -/
theorem takesInTurn_merge_iff {element : Element} {attr : Attribute} {first : Term}
    (found : (defaults.attributes ++ project.attributes).find? (fun term => term.name = name) = some first)
    (single : element.attributes.filter (fun attr => attr.name = name) = [attr]) :
    TakesInTurn (merge defaults project).attributes element name ↔ first.Takes attr.value := by
  have front : ((merge defaults project).attributes.filter fun term => term.name = name).head? =
      some first := by
    rw [List.head?_filter, ← found]
    exact find?_orderedUnion _ _ _
  obtain ⟨others, front⟩ := List.head?_eq_some_iff.mp front
  rw [TakesInTurn, judged, single, front]
  simp

/-- In merged settings each attribute of a name is judged by the term of this name that has its turn, the
built-in ones first. The name is not refused if all of these terms take their values, unless it is
spelled like a responder within a breakpoint; it is refused if one of them does not and no other name
is at fault. Thus if the name is carried once, then of all terms of this name only the first counts; and
of all complex responders of a name only the first counts in every breakpoint. -/
theorem terms_judge_in_turn (defaults : Defaults) (project : Project) (name : String) :
    let settings := merge defaults project
    (∀ element, TakesInTurn settings.attributes element name →
      settings.RefusesValue element name → settings.Qualifies name) ∧
    (∀ element, ¬ TakesInTurn settings.attributes element name →
      (∀ other ≠ name, TakesInTurn settings.attributes element other) →
        settings.RefusesValue element name) ∧
    (∀ term ∈ settings.attributes, term.name = name →
      ∃ first, (defaults.attributes ++ project.attributes).find? (fun term => term.name = name) =
          some first ∧
        ∀ element attr, element.attributes.filter (fun attr => attr.name = name) = [attr] →
          (TakesInTurn settings.attributes element name ↔ first.Takes attr.value)) ∧
    (∀ values, .complex name values ∈ settings.responders → '=' ∉ name.toList →
      ∃ first, (defaults.responders ++ project.responders).find? (Term.isValued name) =
          some (.complex name first) ∧
        ∀ (value : String) (breakpoint : Breakpoint),
          (∀ c ∈ (name ++ value).toList, Unicode.isBlank c = false) →
          let token := (name ++ "=" ++ value).toList
          blankWords token = [token] ∧ settings.tokenClass breakpoint token =
            if value ∈ first then
              .ok ⟨.responder, settings.classNames.responder breakpoint name (some value)⟩
            else .error (.attributeValue (breakpoint.short ++ ":" ++ name) value)) := by
  intro settings
  refine ⟨fun _ => qualifies_of_refusesValue, fun _ => refusesValue_of_not_takesInTurn, ?_, ?_⟩
  · intro term member same
    have present : (settings.attributes.find? fun term => term.name = name).isSome = true :=
      List.find?_isSome.mpr ⟨term, member, decide_eq_true same⟩
    obtain ⟨first, found⟩ := Option.isSome_iff_exists.mp present
    have merged := (find?_orderedUnion _ _ _).symm.trans found
    exact ⟨first, merged, fun _ _ => takesInTurn_merge_iff merged⟩
  · intro values member plain
    have present : settings.complexResponder? name ≠ none := fun absent =>
      complexResponder?_eq_none_iff.mp absent values member
    obtain ⟨term, found⟩ := Option.ne_none_iff_exists'.mp present
    obtain ⟨first, rfl, -⟩ := exists_first_of_complexResponder? found
    refine ⟨first, complexResponder?_merge.symm.trans found, ?_⟩
    intro value breakpoint whole token
    refine ⟨blankWords_of_not_blank (by simp [token]) ?_, tokenClass_of_setting plain found⟩
    have sign : Unicode.isBlank '=' = false := by decide +kernel
    intro c listed
    simp only [token, String.toList_append, List.mem_append] at listed whole
    rcases listed with (own | equals) | set
    · exact whole c (.inl own)
    · obtain rfl : c = '=' := by simpa using equals
      exact sign
    · exact whole c (.inr set)

/-- A project that adds a new name and a value to a name that is built in: the new name can be set,
whereas the added value is refused on an element and in every breakpoint. -/
theorem terms_judge_in_turn_of_additions :
    let project := Project.empty.withAttribute (.complex "order" ["first"])
      |>.withAttribute (.complex "align" ["middle"])
      |>.withResponder (.complex "order" ["first"])
      |>.withResponder (.complex "align" ["middle"])
    let settings := ofProject project
    let box (name value : String) : Element := ⟨"box", [.made name value], false, .nowhere⟩
    .complex "align" ["middle"] ∈ settings.attributes ∧
      .complex "align" ["middle"] ∈ settings.responders ∧
      ¬ settings.RefusesValue (box "order" "first") "order" ∧
      settings.RefusesValue (box "align" "middle") "align" ∧
      ∀ breakpoint, settings.tokenClass breakpoint "order=first".toList =
          .ok ⟨.responder, settings.classNames.responder breakpoint "order" (some "first")⟩ ∧
        settings.tokenClass breakpoint "align=middle".toList =
          .error (.attributeValue (breakpoint.short ++ ":" ++ "align") "middle") := by
  intro project settings box
  have listed : .complex "align" ["middle"] ∈ settings.attributes := by decide +kernel
  have responding : .complex "align" ["middle"] ∈ settings.responders := by decide +kernel
  let builtIn := ["start", "end", "stretch", "center", "baseline"]
  obtain ⟨accepts, -, newTerm, newResponder⟩ := terms_judge_in_turn .standard project "order"
  obtain ⟨-, refuses, oldTerm, oldResponder⟩ := terms_judge_in_turn .standard project "align"
  refine ⟨listed, responding, ?_, ?_, ?_⟩
  · obtain ⟨first, found, counts⟩ := newTerm (.complex "order" ["first"]) (by decide +kernel) rfl
    have own : some first = some (.complex "order" ["first"]) := found.symm.trans (by decide +kernel)
    obtain rfl := Option.some.inj own
    intro refused
    obtain ⟨breakpoint, known, -⟩ :=
      accepts (box "order" "first") ((counts _ _ rfl).mpr (by decide)) refused
    cases known
  · obtain ⟨first, found, counts⟩ := oldTerm _ listed rfl
    have own : some first = some (.complex "align" builtIn) := found.symm.trans (by decide +kernel)
    obtain rfl := Option.some.inj own
    refine refuses (box "align" "middle") ((counts _ _ rfl).not.mpr (by decide)) ?_
    intro other apart
    simp [TakesInTurn, judged, box, Attribute.made, Ne.symm apart]
  · intro breakpoint
    obtain ⟨values, found, taken⟩ := newResponder ["first"] (by decide +kernel) (by decide)
    have own : some (.complex "order" values) = some (Term.complex "order" ["first"]) :=
      found.symm.trans (by decide +kernel)
    cases own
    obtain ⟨values, found, refused⟩ := oldResponder _ responding (by decide)
    have own : some (.complex "align" values) = some (Term.complex "align" builtIn) :=
      found.symm.trans (by decide +kernel)
    cases own
    exact ⟨(taken "first" breakpoint (by decide +kernel)).2,
      (refused "middle" breakpoint (by decide +kernel)).2⟩

/-- It is not so that every value of every merged term can be used, neither on an element nor in a
breakpoint. -/
theorem not_every_term_effective :
    (¬ ∀ (defaults : Defaults) (project : Project) (name value : String) (values : List String)
        (element : Element) (attr : Attribute),
      .complex name values ∈ (merge defaults project).attributes → value ∈ values →
      attr ∈ element.attributes → attr.name = name → attr.value.chars? = some value →
        ¬ (merge defaults project).RefusesValue element name) ∧
    ¬ ∀ (defaults : Defaults) (project : Project) (name value : String) (values : List String)
        (breakpoint : Breakpoint),
      .complex name values ∈ (merge defaults project).responders → value ∈ values →
      '=' ∉ name.toList → (∀ c ∈ (name ++ value).toList, Unicode.isBlank c = false) →
        ∃ entry, (merge defaults project).tokenClass breakpoint (name ++ "=" ++ value).toList =
          .ok entry := by
  constructor
  · intro effective
    have refused : ((ofProject (Project.empty.withAttribute (.complex "align" ["middle"]))).convert
        ⟨"box", [.made "align" "middle"], false, .nowhere⟩).2 =
          some ⟨.attributeValue "align" "middle", "box", Span.nowhere.start⟩ := by decide +kernel
    exact effective .standard (Project.empty.withAttribute (.complex "align" ["middle"])) "align"
      "middle" ["middle"] ⟨"box", [.made "align" "middle"], false, .nowhere⟩ (.made "align" "middle")
      (by decide +kernel) (by decide) (by simp) rfl rfl ⟨_, "middle", refused, rfl⟩
  · intro effective
    obtain ⟨entry, accepted⟩ := effective .standard
      (Project.empty.withResponder (.complex "align" ["middle"])) "align" "middle" ["middle"]
      ⟨"sm", none, none⟩ (by decide +kernel) (by decide) (by decide) (by decide +kernel)
    have refused : (ofProject (Project.empty.withResponder (.complex "align" ["middle"]))).tokenClass
        ⟨"sm", none, none⟩ "align=middle".toList =
          .error (.attributeValue "sm:align" "middle") := by decide +kernel
    cases accepted.symm.trans refused

end Settings

end LayoutMarkup
