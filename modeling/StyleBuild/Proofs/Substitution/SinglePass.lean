import StyleBuild.Proofs.Substitution.Spans
import StyleBuild.Substitution.Registry

/-!
# One pass over a text

`spans names source` are the calls that are replaced when functions of these
names are registered, whatever their callbacks are. They cut the source into
gaps, calls and a tail: written out with the calls as they are, this is the
source, and written out with the answers of the callbacks it is the expansion.
-/

namespace StyleBuild.Substitution

open Text

/-- Gaps with a text after each of them, and a tail. -/
def interleave : List (List Char × List Char) → List Char → List Char
  | [], tail => tail
  | (gap, text) :: rest, tail => gap ++ text ++ interleave rest tail

/-- What stands in front of each call, from `cursor` or from the end of the call before. -/
def gapsFrom (source : List Char) (cursor : Nat) : List Call → List (List Char)
  | [] => []
  | c :: rest => (source.drop cursor).take (c.start - cursor) :: gapsFrom source c.stop rest

/-- What stands behind the last call. -/
def tailFrom (source : List Char) (cursor : Nat) : List Call → List Char
  | [] => source.drop cursor
  | c :: rest => tailFrom source c.stop rest

theorem length_gapsFrom (source : List Char) (cursor : Nat) (cs : List Call) :
    (gapsFrom source cursor cs).length = cs.length := by
  induction cs generalizing cursor with
  | nil => rfl
  | cons c cs ih => rw [gapsFrom, List.length_cons, List.length_cons, ih]

theorem drop_of_standsIn {names : List (List Char)} {source : List Char} {c : Call}
    (h : c.StandsIn names source) : source.drop c.start = c.text ++ source.drop c.stop := by
  obtain ⟨before, after, hsource, hbetween⟩ := h
  rw [hbetween.stop, ← List.drop_drop, hbetween.start, hsource, List.drop_left, List.drop_left]

/-- The source is its gaps and calls. -/
theorem interleave_text {names : List (List Char)} {source : List Char} {cs : List Call}
    (hstands : ∀ c ∈ cs, c.StandsIn names source)
    (happart : cs.Pairwise fun a b => a.stop ≤ b.start) {cursor : Nat}
    (hcursor : ∀ c ∈ cs, cursor ≤ c.start) :
    interleave ((gapsFrom source cursor cs).zip (cs.map Call.text)) (tailFrom source cursor cs) =
      source.drop cursor := by
  induction cs generalizing cursor with
  | nil => rfl
  | cons c cs ih =>
      obtain ⟨hc, happart⟩ := List.pairwise_cons.1 happart
      have hstart : cursor + (c.start - cursor) = c.start :=
        Nat.add_sub_cancel' (hcursor c List.mem_cons_self)
      have hrest := ih (fun d hd => hstands d (List.mem_cons_of_mem _ hd)) happart hc
      rw [gapsFrom, tailFrom, List.map_cons, List.zip_cons_cons, interleave, hrest,
        List.append_assoc, ← drop_of_standsIn (hstands c List.mem_cons_self)]
      conv_rhs => rw [← List.take_append_drop (c.start - cursor) (source.drop cursor)]
      rw [List.drop_drop, hstart]

/-- Replacing the calls keeps the gaps. -/
theorem substituteFrom_eq_interleave (source : List Char) (cursor : Nat) {cs : List Call}
    {texts : List (List Char)} (h : texts.length = cs.length) :
    substituteFrom source cursor (cs.zip texts) =
      interleave ((gapsFrom source cursor cs).zip texts) (tailFrom source cursor cs) := by
  induction cs generalizing cursor texts with
  | nil => rfl
  | cons c cs ih =>
      cases texts with
      | nil => cases h
      | cons text texts =>
          rw [List.zip_cons_cons, substituteFrom, gapsFrom, tailFrom, List.zip_cons_cons,
            interleave, ih c.stop (Nat.succ.inj h)]

namespace Registry

variable {r : Registry} {callbacks : String → Callback}

/-- What a callback answers for a call. -/
def reply (callbacks : String → Callback) (c : Call) : Except String String :=
  callbacks (String.ofList c.name) ((splitArguments c.arguments).map String.ofList)

/-- The names from the longest to the shortest, names of one length in order. -/
def byLength (names : List String) : List (List Char) :=
  (names.mergeSort fun a b => b.utf8ByteSize ≤ a.utf8ByteSize).map String.toList

/-- The calls that are replaced when functions of these names are registered. -/
def spans (names : List String) (source : String) : List Call :=
  calls (byLength names) source.toList

/-- What stands in front of each span. -/
def gaps (names : List String) (source : String) : List (List Char) :=
  gapsFrom source.toList 0 (spans names source)

/-- What stands behind the last span. -/
def tail (names : List String) (source : String) : List Char :=
  tailFrom source.toList 0 (spans names source)

theorem ofList_mem_of_mem_byLength {names : List String} {name : List Char}
    (h : name ∈ byLength names) : String.ofList name ∈ names := by
  obtain ⟨name', hname', rfl⟩ := List.mem_map.1 h
  rw [String.ofList_toList]
  exact List.mem_mergeSort.1 hname'

theorem answer_eq {c : Call}
    (h : r.functions.find? (String.ofList c.name) = some (callbacks (String.ofList c.name))) :
    r.answer c = match reply callbacks c with
      | .error message => .error (.function (String.ofList c.name) message)
      | .ok text => .ok text.toList := by
  rw [answer]
  simp only [h]
  rfl

/-- When all callbacks answer, each call gets its own text. -/
theorem answers_of_ok {cs : List Call} {texts : List String}
    (hfind : ∀ c ∈ cs,
      r.functions.find? (String.ofList c.name) = some (callbacks (String.ofList c.name)))
    (hreply : cs.map (reply callbacks) = texts.map .ok) :
    r.answers cs = .ok (cs.zip (texts.map String.toList)) := by
  induction cs generalizing texts with
  | nil =>
      cases texts with
      | nil => rfl
      | cons text texts => cases hreply
  | cons c cs ih =>
      cases texts with
      | nil => cases hreply
      | cons text texts =>
          obtain ⟨hc, hcs⟩ := List.cons.inj hreply
          have hrest := ih (fun d hd => hfind d (List.mem_cons_of_mem _ hd)) hcs
          rw [answers, answer_eq (hfind c List.mem_cons_self), hc]
          simp only
          rw [hrest, List.map_cons, List.zip_cons_cons]

/-- The first callback that fails decides. -/
theorem answers_of_error {front back : List Call} {c : Call} {message : String}
    (hfind : ∀ d ∈ front ++ c :: back,
      r.functions.find? (String.ofList d.name) = some (callbacks (String.ofList d.name)))
    (hfront : ∀ d ∈ front, ∃ text, reply callbacks d = .ok text)
    (hc : reply callbacks c = .error message) :
    r.answers (front ++ c :: back) = .error (.function (String.ofList c.name) message) := by
  induction front with
  | nil =>
      rw [List.nil_append, answers, answer_eq (hfind c List.mem_cons_self), hc]
  | cons d front ih =>
      obtain ⟨text, htext⟩ := hfront d List.mem_cons_self
      have hrest := ih (fun e he => hfind e (List.mem_cons_of_mem _ he))
        fun e he => hfront e (List.mem_cons_of_mem _ he)
      rw [List.cons_append, answers, answer_eq (hfind d List.mem_cons_self), htext]
      simp only
      rw [hrest]

/-- Only a callback fails. -/
theorem exists_function_of_answers {cs : List Call} {e : Error} (h : r.answers cs = .error e) :
    ∃ name message, e = .function name message := by
  induction cs with
  | nil => cases h
  | cons c cs ih =>
      rw [answers] at h
      split at h
      · next e' hanswer =>
        cases h
        unfold answer at hanswer
        simp only at hanswer
        split at hanswer
        · cases hanswer
        · split at hanswer
          · cases hanswer
            exact ⟨_, _, rfl⟩
          · cases hanswer
      · split at h
        · next hrest =>
          cases h
          exact ih hrest
        · cases h

/-- An expansion is what the answers make of the spans. -/
theorem expand_eq (r : Registry) (source : String) :
    r.expand source =
      match spans r.names source with
      | [] => .ok ⟨source, false⟩
      | c :: cs =>
          match r.answers (c :: cs) with
          | .error e => .error e
          | .ok replacements =>
              .ok ⟨String.ofList (substitute source.toList replacements), true⟩ := by
  unfold expand
  split
  · next hempty =>
    have hnames : r.names = [] := by
      rw [names, Dictionary.keys, List.isEmpty_iff.1 hempty]
      rfl
    have hbyLength : byLength r.names = [] := by
      rw [hnames, byLength, List.mergeSort_nil]
      rfl
    rw [spans, hbyLength, calls_nil]
  · have hspans : calls r.namesByLength source.toList = spans r.names source := rfl
    rw [hspans]
    cases spans r.names source <;> rfl

theorem exists_function_of_expand {source : String} {e : Error} (h : r.expand source = .error e) :
    ∃ name message, e = .function name message := by
  rw [expand_eq] at h
  split at h
  · cases h
  · split at h
    · next hanswers =>
      cases h
      exact exists_function_of_answers hanswers
    · cases h

/-- An expansion is a single pass. The spans depend on the names and the source alone; they are in
order and apart, and each is a call that stands in the source. Whatever the callbacks are, each span
is replaced by the answer for its arguments and all else is kept; when some callbacks fail, the
error is that of the first one. -/
theorem expand_single_pass (names : List String) (source : String) :
    (spans names source).Pairwise (fun a b => a.stop ≤ b.start) ∧
      (∀ c ∈ spans names source,
        String.ofList c.name ∈ names ∧ c.StandsIn (byLength names) source.toList) ∧
      (gaps names source).length = (spans names source).length ∧
      source.toList =
        interleave ((gaps names source).zip ((spans names source).map Call.text))
          (tail names source) ∧
      ∀ (r : Registry) (callbacks : String → Callback), r.names = names →
        (∀ name ∈ names, r.functions.find? name = some (callbacks name)) →
        (∀ texts : List String, (spans names source).map (reply callbacks) = texts.map .ok →
          r.expand source = .ok
            ⟨String.ofList (interleave ((gaps names source).zip (texts.map String.toList))
              (tail names source)), !(spans names source).isEmpty⟩) ∧
        ∀ front c back message, spans names source = front ++ c :: back →
          (∀ d ∈ front, ∃ text, reply callbacks d = .ok text) →
          reply callbacks c = .error message →
          r.expand source = .error (.function (String.ofList c.name) message) := by
  have happart := pairwise_calls (byLength names) source.toList
  have hstands : ∀ c ∈ spans names source, c.StandsIn (byLength names) source.toList :=
    standsIn_calls
  have hnames : ∀ c ∈ spans names source, String.ofList c.name ∈ names := by
    intro c hc
    obtain ⟨before, after, -, hbetween⟩ := hstands c hc
    exact ofList_mem_of_mem_byLength hbetween.name
  refine ⟨happart, fun c hc => ⟨hnames c hc, hstands c hc⟩, length_gapsFrom _ _ _,
    (interleave_text hstands happart fun c _ => Nat.zero_le _).symm, ?_⟩
  intro r callbacks hr hfind
  subst hr
  have hfound : ∀ c ∈ spans r.names source,
      r.functions.find? (String.ofList c.name) = some (callbacks (String.ofList c.name)) :=
    fun c hc => hfind _ (hnames c hc)
  constructor
  · intro texts htexts
    have hlength : (texts.map String.toList).length = (spans r.names source).length := by
      simpa using (congrArg List.length htexts).symm
    have hanswers := answers_of_ok hfound htexts
    have hsubstitute := substituteFrom_eq_interleave source.toList 0 hlength
    rw [expand_eq]
    split
    · next hnone =>
      rw [gaps, tail, hnone, gapsFrom, tailFrom]
      simp [interleave]
    · next c cs hsome =>
      have hchanged : (!(spans r.names source).isEmpty) = true := by
        rw [hsome]
        rfl
      rw [← hsome, hanswers, hchanged]
      simp only [substitute, hsubstitute]
      rfl
  · intro front c back message hspans hfront hc
    rw [hspans] at hfound
    have hanswers := answers_of_error hfound hfront hc
    rw [expand_eq, hspans]
    split
    · next hnone => simp at hnone
    · next d ds hsome => rw [← hsome, hanswers]

/-- The function `twice` repeats its arguments, the other ones fail. -/
def sheetCallbacks (name : String) : Callback := fun arguments =>
  if name = "twice" then .ok (String.join (arguments ++ arguments)) else .error "not now"

def sheetRegistry : Registry :=
  ⟨.ofList [("twice", sheetCallbacks "twice"), ("later", sheetCallbacks "later")]⟩

theorem byLength_sheet : byLength ["later", "twice"] = ["later".toList, "twice".toList] := by
  rw [byLength, List.mergeSort_of_pairwise (by decide)]
  rfl

theorem expand_single_pass_sheet :
    sheetRegistry.expand "a:twice(1);/*twice(2)*/b:twice(twice(3),\")\");$twice(4)" =
        .ok ⟨"a:11;/*twice(2)*/b:twice(3)\")\"twice(3)\")\";$twice(4)", true⟩ ∧
      sheetRegistry.expand "twice(1) later(2) later(3)" = .error (.function "later" "not now") := by
  have hnames : sheetRegistry.names = ["later", "twice"] := by
    decide +kernel
  have hfind : ∀ name ∈ ["later", "twice"],
      sheetRegistry.functions.find? name = some (sheetCallbacks name) := by
    simp only [List.forall_mem_cons, List.not_mem_nil, false_implies, implies_true, and_true]
    exact ⟨rfl, rfl⟩
  constructor
  · obtain ⟨-, -, -, -, hexpand⟩ := expand_single_pass ["later", "twice"]
      "a:twice(1);/*twice(2)*/b:twice(twice(3),\")\");$twice(4)"
    obtain ⟨hok, -⟩ := hexpand sheetRegistry sheetCallbacks hnames hfind
    rw [hok ["11", "twice(3)\")\"twice(3)\")\""]]
    · rw [gaps, tail, spans, byLength_sheet]
      decide +kernel
    · rw [spans, byLength_sheet]
      decide +kernel
  · obtain ⟨-, -, -, -, hexpand⟩ := expand_single_pass ["later", "twice"]
      "twice(1) later(2) later(3)"
    obtain ⟨-, herror⟩ := hexpand sheetRegistry sheetCallbacks hnames hfind
    refine herror [⟨0, "twice".toList, "1".toList, 8⟩] ⟨9, "later".toList, "2".toList, 17⟩
      [⟨18, "later".toList, "3".toList, 26⟩] "not now" ?_ ?_ ?_
    · rw [spans, byLength_sheet]
      decide +kernel
    · intro d hd
      rw [List.mem_singleton.1 hd]
      exact ⟨"11", by decide +kernel⟩
    · decide +kernel

end Registry

end StyleBuild.Substitution
