import StyleBuild.Proofs.Substitution.SinglePass

/-!
# Where arguments are cut

The search for the closing parenthesis of a call passes commas, some of them at
depth zero and outside strings. The arguments are cut where the same search
would pass such commas if no backslash were an escape (`splitArguments_eq`).
These are the commas of the search itself when no string has an escaped quote
of its own kind in it (`passesComma_withoutEscapes`), and a string with one may
be cut in two (`expand_escapedQuote`).
-/

namespace StyleBuild.Substitution

open Text

namespace ParenState

/-- The state behind one more character. The parenthesis that would end the call changes nothing. -/
def step (state : ParenState) (c : Char) : ParenState := (state.next c).getD state

/-- The state behind a text. -/
def after (state : ParenState) (s : List Char) : ParenState := s.foldl step state

/-- Strings are opened by quotes. -/
def IsQuoted : ParenState → Prop
  | .code _ => True
  | .string _ quote => isQuote quote = true
  | .escaped _ quote => isQuote quote = true

/-- The quote that would end the string, directly behind a backslash in it. -/
def escaping? : ParenState → Option Char
  | .escaped _ quote => some quote
  | _ => none

/-- The state, when a backslash was no escape. -/
def unescaped : ParenState → ParenState
  | .code depth => .code depth
  | .string depth quote => .string depth quote
  | .escaped depth quote => .string depth quote

variable {state : ParenState} {c q : Char} {s t : List Char} {n i depth : Nat}

@[simp] theorem after_nil (state : ParenState) : state.after [] = state := rfl

theorem after_cons (state : ParenState) (c : Char) (s : List Char) :
    state.after (c :: s) = (state.step c).after s := rfl

theorem after_append (state : ParenState) (s t : List Char) :
    state.after (s ++ t) = (state.after s).after t :=
  List.foldl_append

theorem unescaped_eq_code_iff : state.unescaped = .code depth ↔ state = .code depth := by
  cases state <;> simp [unescaped]

theorem step_code (depth : Nat) (c : Char) :
    (code depth).step c =
      if isQuote c then string depth c
      else if c = '(' then code (depth + 1)
      else if c = ')' then code (depth - 1)
      else code depth := by
  rw [step, next]
  split_ifs with hquote hopen hclose hzero
  · rfl
  · rfl
  · rw [hzero]
    rfl
  · rfl
  · rfl

theorem isQuoted_step (h : state.IsQuoted) (c : Char) : (state.step c).IsQuoted := by
  cases state with
  | escaped depth quote => exact h
  | string depth quote =>
      simp only [step, next]
      split_ifs
      · exact h
      · trivial
      · exact h
  | code depth =>
      simp only [step, next]
      split_ifs with hquote
      · exact hquote
      all_goals trivial

/-- Before it ends, the search goes on from the state behind what it passed. -/
theorem closingOffset_after (h : closingOffset state s = some n) (hle : i ≤ n) :
    closingOffset (state.after (s.take i)) (s.drop i) = some (n - i) := by
  induction i generalizing state s n with
  | zero => exact h
  | succ i ih =>
      cases s with
      | nil => cases h
      | cons c s =>
          rw [closingOffset] at h
          split at h
          · cases h
            exact absurd hle (Nat.not_succ_le_zero i)
          · next state' hnext =>
            obtain ⟨m, hm, rfl⟩ := Option.map_eq_some_iff.1 h
            have hstep : state.step c = state' := by rw [step, hnext, Option.getD_some]
            rw [List.take_succ_cons, after_cons, hstep, List.drop_succ_cons,
              ih hm (Nat.le_of_succ_le_succ hle), Nat.add_sub_add_right]

end ParenState

/-- Whether the search that is begun in this state passes a comma here, at depth zero and outside
strings. -/
def passesComma (state : ParenState) (s : List Char) (i : Nat) : Bool :=
  s[i]? == some ',' && state.after (s.take i) == .code 0

/-- The pieces between the places of which `p` holds; what stands at such a place is left out. -/
def cutWhere (p : Nat → Bool) : List Char → List (List Char)
  | [] => [[]]
  | c :: s =>
    if p 0 then [] :: cutWhere (fun i => p (i + 1)) s
    else consFirst c (cutWhere (fun i => p (i + 1)) s)

/-- The arguments in a text that is cut at these places, trimmed; a blank text holds none. -/
def argumentsAt (p : Nat → Bool) (s : List Char) : List (List Char) :=
  if isAllBlank s then [] else (cutWhere p s).map trim

/-- A character that starts no escape. -/
def unescape (c : Char) : Char := if c = '\\' then ' ' else c

/-- The text with a blank for each backslash. -/
def withoutEscapes (s : List Char) : List Char := s.map unescape

/-- A backslash in a string takes a quote of the kind that ends the string. -/
def HasEscapedQuote (s : List Char) : Prop :=
  ∃ i < s.length, ((ParenState.code 0).after (s.take i)).escaping? = s[i]?

instance (s : List Char) : Decidable (HasEscapedQuote s) :=
  inferInstanceAs (Decidable (∃ i < s.length, _))

variable {state : ParenState} {c q : Char} {s t : List Char} {p p' : Nat → Bool} {i depth : Nat}
  {quote : Option Char}

theorem passesComma_zero (state : ParenState) (c : Char) (s : List Char) :
    passesComma state (c :: s) 0 = (c == ',' && state == .code 0) := rfl

theorem passesComma_succ (state : ParenState) (c : Char) (s : List Char) :
    (fun i => passesComma state (c :: s) (i + 1)) = passesComma (state.step c) s := rfl

theorem comma_of_passesComma (h : passesComma state s i = true) : s[i]? = some ',' := by
  rw [passesComma, Bool.and_eq_true] at h
  exact eq_of_beq h.1

/-- Where the cutting of arguments stands, as a state of the search. -/
def cutState (depth : Nat) : Option Char → ParenState
  | none => .code depth
  | some q => .string depth q

theorem ne_of_isQuote (hq : isQuote q = true) : q ≠ ' ' ∧ q ≠ '\\' := by
  constructor <;> rintro rfl <;> revert hq <;> decide

/-- A string ends at the next quote of its kind, when nothing is an escape. -/
theorem step_string_unescape (hq : isQuote q = true) (depth : Nat) (c : Char) :
    (ParenState.string depth q).step (unescape c) =
      if c = q then .code depth else .string depth q := by
  obtain ⟨hblank, hescape⟩ := ne_of_isQuote hq
  by_cases hc : c = '\\'
  · have hquote : c ≠ q := fun heq => hescape (heq.symm.trans hc)
    rw [unescape, if_pos hc, if_neg hquote, ParenState.step, ParenState.next,
      if_neg (by decide), if_neg hblank.symm]
    rfl
  · rw [unescape, if_neg hc, ParenState.step, ParenState.next, if_neg hc]
    split_ifs <;> rfl

/-- Outside strings a backslash is read like a blank. -/
theorem step_code_unescape (depth : Nat) (c : Char) :
    (ParenState.code depth).step (unescape c) = (ParenState.code depth).step c := by
  unfold unescape
  split_ifs with hc
  · rw [hc]
    rfl
  · rfl

theorem unescape_eq_comma_iff : unescape c = ',' ↔ c = ',' := by
  unfold unescape
  split_ifs with hc
  · rw [hc]
    decide
  · rfl

theorem cutState_eq_code_iff : cutState depth quote = .code 0 ↔ quote = none ∧ depth = 0 := by
  cases quote <;> simp [cutState]

/-- Any other character than a comma outside strings and parentheses belongs to the piece it
stands in, and the search goes on in step. -/
theorem cutAtCommas_cons (hquote : ∀ q ∈ quote, isQuote q = true)
    (hcomma : ¬ (c = ',' ∧ quote = none ∧ depth = 0)) :
    ∃ depth' quote', (∀ q ∈ quote', isQuote q = true) ∧
      (cutState depth quote).step (unescape c) = cutState depth' quote' ∧
      cutAtCommas depth quote (c :: s) = consFirst c (cutAtCommas depth' quote' s) := by
  rw [cutAtCommas.eq_def]
  cases quote with
  | some q =>
      refine ⟨depth, if c = q then none else some q, ?_, ?_, rfl⟩
      · split_ifs
        · simp
        · exact hquote
      · rw [cutState, step_string_unescape (hquote q rfl)]
        split_ifs <;> rfl
  | none =>
      have hstep : (cutState depth none).step (unescape c) = (ParenState.code depth).step c :=
        step_code_unescape depth c
      rw [hstep, ParenState.step_code]
      simp only
      split_ifs with hc hopen hclose hbreak
      · exact ⟨depth, some c, by simpa using hc, rfl, rfl⟩
      · exact ⟨depth + 1, none, by simp, rfl, rfl⟩
      · exact ⟨depth - 1, none, by simp, rfl, rfl⟩
      · exact absurd ⟨hbreak.1, rfl, hbreak.2⟩ hcomma
      · exact ⟨depth, none, by simp, rfl, rfl⟩

/-- Arguments are cut at the commas of a search in which no backslash is an escape. -/
theorem cutAtCommas_eq (hquote : ∀ q ∈ quote, isQuote q = true) (s : List Char) :
    cutAtCommas depth quote s =
      cutWhere (passesComma (cutState depth quote) (withoutEscapes s)) s := by
  induction s generalizing depth quote with
  | nil => rfl
  | cons c s ih =>
      have hcons : withoutEscapes (c :: s) = unescape c :: withoutEscapes s := rfl
      rw [cutWhere, hcons, passesComma_zero, passesComma_succ]
      by_cases hcomma : c = ',' ∧ quote = none ∧ depth = 0
      · obtain ⟨rfl, rfl, rfl⟩ := hcomma
        exact congrArg ([] :: ·) (ih hquote)
      · obtain ⟨depth', quote', hquote', hstep, hcut⟩ := cutAtCommas_cons hquote hcomma
        have hpassed : (unescape c == ',' && cutState depth quote == .code 0) = false := by
          rw [Bool.eq_false_iff, Ne, Bool.and_eq_true, beq_iff_eq, beq_iff_eq,
            unescape_eq_comma_iff, cutState_eq_code_iff]
          exact hcomma
        rw [hcut, hpassed, if_neg Bool.false_ne_true, hstep, ih hquote']

theorem splitArguments_eq (s : List Char) :
    splitArguments s = argumentsAt (passesComma (.code 0) (withoutEscapes s)) s := by
  rw [splitArguments, argumentsAt, cutAtCommas_eq (by simp)]
  rfl

/-- Without its escapes a text is searched alike, as long as no escaped quote ends a string. -/
theorem after_withoutEscapes (hquoted : state.IsQuoted)
    (h : ∀ i < s.length, (state.after (s.take i)).escaping? ≠ s[i]?) :
    state.unescaped.after (withoutEscapes s) = (state.after s).unescaped := by
  induction s generalizing state with
  | nil => rfl
  | cons c s ih =>
      have hstep : state.unescaped.step (unescape c) = (state.step c).unescaped := by
        cases state with
        | code depth =>
            rw [ParenState.unescaped, step_code_unescape, ParenState.step_code]
            split_ifs <;> rfl
        | string depth quote =>
            obtain ⟨-, hescape⟩ := ne_of_isQuote hquoted
            rw [ParenState.unescaped, step_string_unescape hquoted, ParenState.step,
              ParenState.next]
            split_ifs with hc hbackslash hbackslash
            · exact absurd (hc.symm.trans hbackslash) hescape
            · rfl
            · rfl
            · rfl
        | escaped depth quote =>
            have hc : c ≠ quote := fun heq => h 0 (Nat.succ_pos _) (congrArg some heq.symm)
            rw [ParenState.unescaped, step_string_unescape hquoted, if_neg hc]
            rfl
      have hcons : withoutEscapes (c :: s) = unescape c :: withoutEscapes s := rfl
      rw [hcons, ParenState.after_cons, hstep, ParenState.after_cons]
      exact ih (ParenState.isQuoted_step hquoted c) fun i hi => h (i + 1) (Nat.succ_lt_succ hi)

theorem passesComma_withoutEscapes (h : ¬ HasEscapedQuote s) :
    passesComma (.code 0) (withoutEscapes s) = passesComma (.code 0) s := by
  funext i
  have hcomma : (withoutEscapes s)[i]? = some ',' ↔ s[i]? = some ',' := by
    rw [withoutEscapes, List.getElem?_map]
    cases s[i]? with
    | none => simp
    | some c => simpa using unescape_eq_comma_iff
  have htake : (withoutEscapes s).take i = withoutEscapes (s.take i) := by
    rw [withoutEscapes, withoutEscapes, List.map_take]
  have hafter : (ParenState.code 0).after (withoutEscapes (s.take i)) =
      ((ParenState.code 0).after (s.take i)).unescaped := by
    refine @after_withoutEscapes (.code 0) (s.take i) trivial fun j hj hescaped => h ?_
    rw [List.length_take, Nat.lt_min] at hj
    rw [List.take_take, Nat.min_eq_left hj.1.le, List.getElem?_take_of_lt hj.1] at hescaped
    exact ⟨j, hj.2, hescaped⟩
  rw [Bool.eq_iff_iff, passesComma, passesComma, Bool.and_eq_true, Bool.and_eq_true, beq_iff_eq,
    beq_iff_eq, beq_iff_eq, beq_iff_eq, hcomma, htake, hafter, ParenState.unescaped_eq_code_iff]

theorem exists_cutWhere_eq_cons (p : Nat → Bool) (s : List Char) :
    ∃ l ls, cutWhere p s = l :: ls := by
  cases s with
  | nil => exact ⟨_, _, rfl⟩
  | cons c s =>
      rw [cutWhere]
      split_ifs
      · exact ⟨_, _, rfl⟩
      · cases cutWhere (fun i => p (i + 1)) s with
        | nil => exact ⟨_, _, rfl⟩
        | cons l ls => exact ⟨_, _, rfl⟩

/-- The commas that are left in the pieces tell where a text was cut. -/
theorem eq_of_map_count_cutWhere (hp : ∀ i, p i = true → s[i]? = some ',')
    (hp' : ∀ i, p' i = true → s[i]? = some ',')
    (h : (cutWhere p s).map (·.count ',') = (cutWhere p' s).map (·.count ',')) : p = p' := by
  induction s generalizing p p' with
  | nil =>
      funext i
      have hi : p i = false := Bool.eq_false_iff.2 fun hi => nomatch hp i hi
      have hi' : p' i = false := Bool.eq_false_iff.2 fun hi => nomatch hp' i hi
      rw [hi, hi']
  | cons c s ih =>
      obtain ⟨l, ls, hl⟩ := exists_cutWhere_eq_cons (fun i => p (i + 1)) s
      obtain ⟨l', ls', hl'⟩ := exists_cutWhere_eq_cons (fun i => p' (i + 1)) s
      have hrest : l.count ',' = l'.count ',' → ls.map (·.count ',') = ls'.map (·.count ',') →
          (fun i => p (i + 1)) = fun i => p' (i + 1) := fun hhead htail =>
        ih (fun i hi => hp (i + 1) hi) (fun i hi => hp' (i + 1) hi) (by
          rw [hl, hl', List.map_cons, List.map_cons, hhead, htail])
      have hfirst : p 0 = p' 0 ∧ l.count ',' = l'.count ',' ∧
          ls.map (·.count ',') = ls'.map (·.count ',') := by
        rw [cutWhere, cutWhere, hl, hl'] at h
        cases hzero : p 0 <;> cases hzero' : p' 0 <;>
          simp only [hzero, hzero', Bool.false_eq_true, if_true, if_false, consFirst, List.map_cons,
            List.cons.injEq, List.count_cons, List.count_nil] at h
        · exact ⟨rfl, Nat.add_right_cancel h.1, h.2⟩
        · cases hp' 0 hzero'
          simp at h
        · cases hp 0 hzero
          simp at h
        · exact ⟨rfl, h.2.1, h.2.2⟩
      funext i
      cases i with
      | zero => exact hfirst.1
      | succ i => exact congrFun (hrest hfirst.2.1 hfirst.2.2) i

theorem count_trim (s : List Char) : (trim s).count ',' = s.count ',' := by
  have hstart : ∀ t : List Char, (t.dropWhile isBlank).count ',' = t.count ',' := by
    intro t
    have hblank : (t.takeWhile isBlank).count ',' = 0 :=
      List.count_eq_zero.2 fun hmem => by
        have hcomma := List.all_eq_true.1 List.all_takeWhile _ hmem
        revert hcomma
        decide
    conv_rhs => rw [← @List.takeWhile_append_dropWhile _ isBlank t, List.count_append, hblank,
      Nat.zero_add]
  rw [trim, trimEnd, List.count_reverse, hstart, List.count_reverse, trimStart, hstart]

/-- Different cuts give different arguments. -/
theorem argumentsAt_eq_iff (hp : ∀ i, p i = true → s[i]? = some ',')
    (hp' : ∀ i, p' i = true → s[i]? = some ',') :
    argumentsAt p s = argumentsAt p' s ↔ p = p' := by
  refine ⟨fun h => ?_, fun h => by rw [h]⟩
  have hfalse : ∀ {p : Nat → Bool}, (∀ i, p i = true → s[i]? = some ',') →
      isAllBlank s = true → p = fun _ => false := by
    intro p hp hblank
    funext i
    refine Bool.eq_false_iff.2 fun hi => ?_
    have hcomma := List.all_eq_true.1 hblank _ (List.mem_of_getElem? (hp i hi))
    revert hcomma
    decide
  unfold argumentsAt at h
  split_ifs at h with hblank
  · rw [hfalse hp hblank, hfalse hp' hblank]
  · refine eq_of_map_count_cutWhere hp hp' ?_
    have hcount := congrArg (List.map fun l => l.count ',') h
    simpa only [List.map_map, Function.comp_def, count_trim] using hcount

namespace Registry

variable {r : Registry} {source : String} {c : Call} {callback : Callback}

/-- What the callback of a replaced call gets: the text between its parentheses, cut and trimmed.
The search for the closing parenthesis passes this text. It is cut at the commas which that search
passes at depth zero and outside strings when no backslash is an escape; these are the commas of
the search itself exactly when the arguments are cut at those, and always when no string has an
escaped quote of its own kind. -/
theorem answer_of_mem_spans (hc : c ∈ spans r.names source)
    (hfind : r.functions.find? (String.ofList c.name) = some callback) :
    r.answer c =
        ((callback ((argumentsAt (passesComma (.code 0) (withoutEscapes c.arguments))
          c.arguments).map String.ofList)).mapError (.function (String.ofList c.name))).map
            String.toList ∧
      (∃ front back, source.toList = front ++ (c.text ++ back) ∧ c.start = front.length ∧
        ∀ i ≤ c.arguments.length,
          closingOffset ((ParenState.code 0).after (c.arguments.take i))
            (c.arguments.drop i ++ ')' :: back) = some (c.arguments.length - i)) ∧
      (splitArguments c.arguments = argumentsAt (passesComma (.code 0) c.arguments) c.arguments ↔
        passesComma (.code 0) (withoutEscapes c.arguments) =
          passesComma (.code 0) c.arguments) ∧
      (¬ HasEscapedQuote c.arguments →
        splitArguments c.arguments =
          argumentsAt (passesComma (.code 0) c.arguments) c.arguments) := by
  have hcommas : ∀ i, passesComma (.code 0) (withoutEscapes c.arguments) i = true →
      c.arguments[i]? = some ',' := by
    intro i hi
    have hcomma := comma_of_passesComma hi
    rw [withoutEscapes, List.getElem?_map, Option.map_eq_some_iff] at hcomma
    obtain ⟨a, ha, hplain⟩ := hcomma
    rw [ha, unescape_eq_comma_iff.1 hplain]
  refine ⟨?_, ?_, ?_, fun h => by rw [splitArguments_eq, passesComma_withoutEscapes h]⟩
  · rw [answer]
    simp only [hfind]
    rw [← splitArguments_eq]
    cases callback ((splitArguments c.arguments).map String.ofList) <;> rfl
  · obtain ⟨front, back, htext, hbetween⟩ := standsIn_calls c hc
    refine ⟨front, back, htext, hbetween.start, fun i hi => ?_⟩
    have hsearch := ParenState.closingOffset_after hbetween.closing hi
    rwa [List.take_append_of_le_length hi, List.drop_append_of_le_length hi] at hsearch
  · rw [splitArguments_eq]
    exact argumentsAt_eq_iff hcommas fun i hi => comma_of_passesComma hi

/-- The function `f` answers its arguments, with bars between them. -/
def barsRegistry : Registry := ⟨.ofList [("f", fun arguments => .ok ("|".intercalate arguments))]⟩

theorem spans_bars (source : String) :
    spans barsRegistry.names source = calls ["f".toList] source.toList := by
  have hnames : barsRegistry.names = ["f"] := rfl
  rw [hnames, spans, byLength, List.mergeSort_singleton]
  rfl

/-- Strings with a comma, an escaped backslash and an escaped apostrophe, and inner parentheses. -/
def escapesCall : Call := ⟨3, "f".toList, "'\\\\', \"x,\\'y\" , (c, d)".toList, 28⟩

theorem answer_of_mem_spans_escapes :
    escapesCall ∈ spans barsRegistry.names "a: f('\\\\', \"x,\\'y\" , (c, d));" ∧
      ¬ HasEscapedQuote escapesCall.arguments ∧
      barsRegistry.answer escapesCall = .ok "'\\\\'|\"x,\\'y\"|(c, d)".toList ∧
      splitArguments escapesCall.arguments =
        argumentsAt (passesComma (.code 0) escapesCall.arguments) escapesCall.arguments := by
  have hmem : escapesCall ∈ spans barsRegistry.names "a: f('\\\\', \"x,\\'y\" , (c, d));" := by
    rw [spans_bars]
    decide +kernel
  have hplain : ¬ HasEscapedQuote escapesCall.arguments := by decide +kernel
  obtain ⟨hanswer, -, -, hsplit⟩ := answer_of_mem_spans hmem rfl
  exact ⟨hmem, hplain, hanswer.trans (by decide +kernel), hsplit hplain⟩

/-- Behind an escaped quote of its own kind a string is cut in two, and another one is merged with
the argument behind it. -/
theorem expand_escapedQuote :
    barsRegistry.expand "f(\"a\\\",b\")" = .ok ⟨"\"a\\\"|b\"", true⟩ ∧
      argumentsAt (passesComma (.code 0) "\"a\\\",b\"".toList) "\"a\\\",b\"".toList =
        ["\"a\\\",b\"".toList] ∧
      barsRegistry.expand "f('it\\'s', b)" = .ok ⟨"'it\\'s', b", true⟩ ∧
      argumentsAt (passesComma (.code 0) "'it\\'s', b".toList) "'it\\'s', b".toList =
        ["'it\\'s'".toList, "b".toList] := by
  refine ⟨?_, by decide +kernel, ?_, by decide +kernel⟩
  all_goals
    rw [expand_eq, spans_bars]
    decide +kernel

end Registry

end StyleBuild.Substitution
