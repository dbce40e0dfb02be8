import StyleBuild.Proofs.Substitution.Arguments
import StyleBuild.Proofs.Substitution.Completeness

/-!
# Where a call ends

The search for the closing parenthesis of a call knows strings but no comments.
It starts behind a name that lies in no literal, and from there on it passes the
code and the strings of the text as they are; `Call.Searched` is what holds
where it stands outside of literals. So a call ends in no literal as long as the
search is outside strings again behind each comment among the arguments
(`closing_outside_literals`). A parenthesis or an apostrophe in a comment may
end the call there, or have it reach further (`expand_comment`).
-/

namespace StyleBuild.Substitution

open Text

def ParenState.isCode : ParenState → Bool
  | .code _ => true
  | _ => false

/-- Neither a quote nor a parenthesis. -/
def isPlain (a : Char) : Bool := !isQuote a && a != '(' && a != ')'

/-- Of `depth` parentheses and those of the text, each closer has its opener in front of it, and
each opener has a closer. -/
structure Closes (depth : Nat) (s : List Char) : Prop where
  total : s.count ')' = depth + s.count '('
  front : ∀ t, t <+: s → t.count ')' ≤ depth + t.count '('

namespace Call

/-- Where the arguments start. -/
def inside (c : Call) : Nat := c.start + c.name.length + 1

/-- Where the search for the closing parenthesis stands at a position among the arguments. -/
def searchAt (c : Call) (position : Nat) : ParenState :=
  (ParenState.code 0).after (c.arguments.take (position - c.inside))

/-- The characters of the arguments that lie in no literal. -/
def code (c : Call) (source : List Char) : List Char :=
  outside (literalRegions source) c.inside c.arguments

/-- Comments that start among the arguments end there, and behind them the search is outside
strings if it was so before. -/
def LeavesComments (c : Call) (source : List Char) : Prop :=
  ∀ r ∈ literalRegions source, source[r.start]? = some '/' → c.ArgumentsHave r.start →
    (c.searchAt r.start).isCode = true → r.stop < c.stop ∧ (c.searchAt r.stop).isCode = true

/-- Comments that start among the arguments end there, and leave the search as it is. -/
def IgnoresComments (c : Call) (source : List Char) : Prop :=
  ∀ r ∈ literalRegions source, source[r.start]? = some '/' → c.ArgumentsHave r.start →
    (c.searchAt r.start).isCode = true →
    r.stop < c.stop ∧ c.searchAt r.stop = c.searchAt r.start

/-- No comment that starts among the arguments has a quote or a parenthesis in it. -/
def HasPlainComments (c : Call) (source : List Char) : Prop :=
  ∀ r ∈ literalRegions source, source[r.start]? = some '/' → c.ArgumentsHave r.start →
    ((source.drop r.start).take (r.stop - r.start)).all isPlain = true

instance (c : Call) (source : List Char) : Decidable (c.LeavesComments source) :=
  inferInstanceAs (Decidable (∀ r ∈ literalRegions source, _))

instance (c : Call) (source : List Char) : Decidable (c.IgnoresComments source) :=
  inferInstanceAs (Decidable (∀ r ∈ literalRegions source, _))

instance (c : Call) (source : List Char) : Decidable (c.HasPlainComments source) :=
  inferInstanceAs (Decidable (∀ r ∈ literalRegions source, _))

end Call

variable {c : Call} {source front s t : List Char} {before : Option Char} {a q : Char}
  {depth depth' n k : Nat} {state : ParenState}

theorem ParenState.eq_code_of_isCode (h : state.isCode = true) : ∃ depth, state = .code depth := by
  cases state with
  | code depth => exact ⟨depth, rfl⟩
  | string depth quote => cases h
  | escaped depth quote => cases h

theorem Call.IgnoresComments.leavesComments (h : c.IgnoresComments source) :
    c.LeavesComments source := by
  intro r hr hcomment hinside hcode
  obtain ⟨hstop, hsame⟩ := h r hr hcomment hinside hcode
  exact ⟨hstop, hsame ▸ hcode⟩

theorem closes_nil : Closes 0 [] :=
  ⟨rfl, fun t ht => by rw [List.prefix_nil.1 ht]; exact Nat.le_refl _⟩

/-- In front of a character that is no quote and that the search passes. -/
theorem closes_cons (hquote : isQuote a = false)
    (hnext : (ParenState.code depth).next a = some (.code depth')) (h : Closes depth' s) :
    Closes depth (a :: s) := by
  have hcount : ∀ t : List Char,
      (a :: t).count ')' + depth' + t.count '(' = t.count ')' + depth + (a :: t).count '(' := by
    intro t
    rw [ParenState.next, if_neg (Bool.eq_false_iff.1 hquote)] at hnext
    split_ifs at hnext with hopen hclose hzero
    · cases hnext
      subst hopen
      simp only [List.count_cons_self, List.count_cons_of_ne (by decide : '(' ≠ ')')]
      omega
    · cases hnext
      subst hclose
      simp only [List.count_cons_self, List.count_cons_of_ne (by decide : ')' ≠ '(')]
      omega
    · cases hnext
      rw [List.count_cons_of_ne hopen, List.count_cons_of_ne hclose]
  constructor
  · have htotal := h.total
    have hs := hcount s
    omega
  · intro t ht
    cases t with
    | nil => exact Nat.zero_le _
    | cons b t =>
        obtain ⟨rfl, hprefix⟩ := List.cons_prefix_cons.1 ht
        have hfront := h.front t hprefix
        have ht := hcount t
        omega

/-- The search goes on behind a character that does not end it. -/
theorem exists_of_closingOffset_cons (h : closingOffset state (a :: s) = some n)
    (hnext : state.next a ≠ none) :
    ∃ m, n = m + 1 ∧ closingOffset (state.step a) s = some m := by
  obtain ⟨state', hstate⟩ := Option.ne_none_iff_exists'.1 hnext
  rw [closingOffset, hstate] at h
  obtain ⟨m, hm, rfl⟩ := Option.map_eq_some_iff.1 h
  exact ⟨m, rfl, by rwa [ParenState.step, hstate]⟩

theorem next_string_ne_none (depth : Nat) (q a : Char) :
    (ParenState.string depth q).next a ≠ none := by
  rw [ParenState.next]
  split_ifs <;> exact Option.some_ne_none _

/-- At a character that is no quote the search ends, or it stays outside strings. -/
theorem next_code_cases (depth : Nat) (hquote : isQuote a = false) :
    depth = 0 ∧ (ParenState.code depth).next a = none ∨
      ∃ depth', (ParenState.code depth).next a = some (.code depth') := by
  rw [ParenState.next, if_neg (Bool.eq_false_iff.1 hquote)]
  split_ifs with hopen hclose hzero
  · exact .inr ⟨_, rfl⟩
  · exact .inl ⟨hzero, rfl⟩
  · exact .inr ⟨_, rfl⟩
  · exact .inr ⟨_, rfl⟩

/-- The search passes a string with its escapes. -/
theorem quotedLength_le_of_search (h : closingOffset (.string depth q) s = some n) :
    quotedLength q s ≤ n ∧
      (ParenState.string depth q).after (s.take (quotedLength q s)) = .code depth := by
  induction s using quoted_induction (q := q) generalizing n with
  | nil => cases h
  | backslash => cases h
  | escape c s ih =>
      obtain ⟨m, rfl, hbehind⟩ := exists_of_closingOffset_cons h (next_string_ne_none _ _ _)
      have hescaped : closingOffset (.escaped depth q) (c :: s) = some m := hbehind
      obtain ⟨m, rfl, hstring⟩ := exists_of_closingOffset_cons hescaped (Option.some_ne_none _)
      obtain ⟨hle, hafter⟩ := ih hstring
      rw [quotedLength_escape, Nat.add_comm 2]
      exact ⟨Nat.add_le_add_right hle 2, hafter⟩
  | quote s hq =>
      obtain ⟨m, rfl, -⟩ := exists_of_closingOffset_cons h (next_string_ne_none _ _ _)
      rw [quotedLength_quote hq]
      refine ⟨Nat.le_add_left 1 m, ?_⟩
      rw [List.take_succ_cons, List.take_zero, ParenState.after_cons, ParenState.after_nil,
        ParenState.step, ParenState.next, if_neg hq, if_pos rfl, Option.getD_some]
  | other c s hc hne ih =>
      have hstep : (ParenState.string depth q).step c = .string depth q := by
        rw [ParenState.step, ParenState.next, if_neg hc, if_neg hne, Option.getD_some]
      obtain ⟨m, rfl, hm⟩ := exists_of_closingOffset_cons h (next_string_ne_none _ _ _)
      obtain ⟨hle, hafter⟩ := ih (hstep ▸ hm)
      rw [quotedLength_other hc hne, Nat.add_comm 1]
      refine ⟨Nat.add_le_add_right hle 1, ?_⟩
      rw [List.take_succ_cons, ParenState.after_cons, hstep, hafter]

/-- The search for the closing parenthesis of the call stands behind `front`, outside of literals
and strings, and `n` characters in front of the parenthesis. -/
structure Call.Searched (c : Call) (source front : List Char) (before : Option Char)
    (s : List Char) (depth n : Nat) : Prop where
  remains : Remains source front before s
  search : closingOffset (.code depth) s = some n
  inside : c.inside ≤ front.length
  stop : c.stop = front.length + n + 1
  searchAt : ∀ k ≤ n, c.searchAt (front.length + k) = (ParenState.code depth).after (s.take k)

/-- The parenthesis that is found lies in no literal, and it closes the code in front of it if
comments are ignored. -/
structure Call.Ends (c : Call) (source : List Char) (position depth : Nat) (s : List Char)
    (n : Nat) : Prop where
  outside : ∀ r ∈ literalRegions source, r.has (position + n) = false
  closes : c.IgnoresComments source →
    Closes depth (Substitution.outside (literalRegions source) position (s.take n))

namespace Call.Searched

variable (h : c.Searched source front before s depth n)
include h

theorem length_append_take (hk : k ≤ n) : (front ++ s.take k).length = front.length + k := by
  have hlt := closingOffset_lt _ _ _ h.search
  rw [List.length_append, List.length_take_of_le (hk.trans hlt.le)]

/-- The search goes on behind some more text, at which it is outside of strings again. -/
theorem advance {before' : Option Char}
    (hremains : Remains source (front ++ s.take k) before' (s.drop k)) (hk : k ≤ n)
    (hafter : (ParenState.code depth).after (s.take k) = .code depth') :
    c.Searched source (front ++ s.take k) before' (s.drop k) depth' (n - k) := by
  have hlength := h.length_append_take hk
  refine ⟨hremains, ?_, ?_, ?_, fun i hi => ?_⟩
  · rw [← hafter]
    exact ParenState.closingOffset_after h.search hk
  · exact hlength ▸ h.inside.trans (Nat.le_add_right _ _)
  · rw [hlength, h.stop]
    omega
  · rw [hlength, Nat.add_assoc, h.searchAt (k + i) (by omega), List.take_add,
      ParenState.after_append, hafter]

/-- What is found from there on is what is found from here. -/
theorem ends_of_advance (hk : k ≤ n)
    (hends : c.Ends source (front ++ s.take k).length depth' (s.drop k) (n - k))
    (hcloses : c.IgnoresComments source → ∀ w, Closes depth' w →
      Closes depth (outside (literalRegions source) front.length (s.take k) ++ w)) :
    c.Ends source front.length depth s n := by
  have hlength := h.length_append_take hk
  constructor
  · have houtside := hends.outside
    rwa [hlength, Nat.add_assoc, Nat.add_sub_cancel' hk] at houtside
  · intro hignores
    have hcut : s.take n = s.take k ++ (s.drop k).take (n - k) := by
      rw [← List.take_add, Nat.add_sub_cancel' hk]
    have hrest := hends.closes hignores
    rw [List.length_append] at hrest
    rw [hcut, outside_append]
    exact hcloses hignores _ hrest

/-- The search passes a literal, and is outside of strings behind it. -/
theorem exists_after_literal (hleaves : c.LeavesComments source)
    (hliteral : literalLength before s ≠ 0) :
    literalLength before s ≤ n ∧ ∃ depth',
      (ParenState.code depth).after (s.take (literalLength before s)) = .code depth' ∧
        (c.IgnoresComments source → depth' = depth) := by
  rcases literal_cases hliteral with ⟨q, t, hq, rfl, hlength⟩ | ⟨a, t, rfl, -⟩
  · have hquote : isQuote q = true := by rcases hq with rfl | rfl <;> rfl
    have hstep : (ParenState.code depth).step q = .string depth q := by
      rw [ParenState.step_code, if_pos hquote]
    obtain ⟨m, rfl, hsearch⟩ := exists_of_closingOffset_cons h.search (by
      rw [ParenState.next, if_pos hquote]
      exact Option.some_ne_none _)
    rw [hstep] at hsearch
    obtain ⟨hle, hafter⟩ := quotedLength_le_of_search hsearch
    rw [hlength, Nat.add_comm 1, List.take_succ_cons, ParenState.after_cons, hstep]
    exact ⟨Nat.succ_le_succ hle, depth, hafter, fun _ => rfl⟩
  · have hslash : source[front.length]? = some '/' := h.remains.getElem? 0
    have hne : n ≠ 0 := by
      rintro rfl
      obtain ⟨m, hm, -⟩ := exists_of_closingOffset_cons h.search (by
        rw [ParenState.next]
        exact Option.some_ne_none _)
      cases hm
    have hinside : c.ArgumentsHave front.length := by
      have hle := h.inside
      have hstop := h.stop
      rw [Call.inside] at hle
      exact ⟨hle, by omega⟩
    have hbegin : c.searchAt front.length = .code depth := h.searchAt 0 (Nat.zero_le n)
    have hmem := h.remains.mem_literalRegions hliteral
    obtain ⟨hstop, hcode⟩ := hleaves _ hmem hslash hinside (by rw [hbegin]; rfl)
    have hle : literalLength before ('/' :: a :: t) ≤ n := by
      have hend := h.stop
      simp only at hstop
      omega
    obtain ⟨depth', hdepth⟩ := ParenState.eq_code_of_isCode hcode
    have hafter := h.searchAt _ hle
    refine ⟨hle, depth', hafter.symm.trans hdepth, fun hignores => ?_⟩
    obtain ⟨-, hsame⟩ := hignores _ hmem hslash hinside (by rw [hbegin]; rfl)
    rw [hbegin, hdepth] at hsame
    exact ParenState.code.inj hsame

end Call.Searched

/-- As long as comments leave the search outside strings, it finds a parenthesis outside of
literals. -/
theorem Call.Searched.ends (hleaves : c.LeavesComments source)
    (h : c.Searched source front before s depth n) : c.Ends source front.length depth s n := by
  induction before, s using literal_induction generalizing front depth n with
  | nil before => cases h.search
  | code before a s hcode ih =>
      obtain ⟨hdouble, hsingle, -⟩ := ne_quote_of_literalLength hcode
      have hquote : isQuote a = false := by simp [isQuote, hdouble, hsingle]
      have hsearch := h.search
      rcases next_code_cases depth hquote with ⟨rfl, hnone⟩ | ⟨depth', hsome⟩
      · rw [closingOffset, hnone] at hsearch
        cases hsearch
        exact ⟨h.remains.has_eq_false hcode, fun _ => closes_nil⟩
      · obtain ⟨m, rfl, -⟩ := exists_of_closingOffset_cons hsearch (hsome ▸ Option.some_ne_none _)
        have hstep : (ParenState.code depth).after ((a :: s).take 1) = .code depth' := by
          rw [List.take_succ_cons, List.take_zero, ParenState.after_cons, ParenState.after_nil,
            ParenState.step, hsome, Option.getD_some]
        have hone : 1 ≤ m + 1 := Nat.le_add_left 1 m
        refine h.ends_of_advance hone (ih (h.advance (h.remains.code hcode) hone hstep))
          fun _ w hw => ?_
        rw [List.take_succ_cons, List.take_zero, h.remains.outside_code hcode]
        exact closes_cons hquote hsome hw
  | literal before s hliteral ih =>
      obtain ⟨hle, depth', hafter, hsame⟩ := h.exists_after_literal hleaves hliteral
      refine h.ends_of_advance hle (ih (h.advance (h.remains.literal hliteral) hle hafter))
        fun hignores w hw => ?_
      rw [h.remains.outside_literal hliteral, List.nil_append, ← hsame hignores]
      exact hw

theorem IsIdentifier.startsNoLiteral (h : IsIdentifier s) :
    ∀ a ∈ s, a ≠ '"' ∧ a ≠ '\'' ∧ a ≠ '/' := by
  intro a ha
  refine ⟨?_, ?_, ?_⟩
  all_goals
    rintro rfl
    rcases h.all _ ha with halnum | heq | heq
    · revert halnum
      decide
    · cases heq
    · cases heq

namespace Call.StandsBetween

variable {names : List (List Char)} {regions : List Region} {back : List Char}

theorem length_inside (h : c.StandsBetween names regions front back) :
    (front ++ (c.name ++ ['('])).length = c.inside := by
  rw [List.length_append, List.length_append, List.length_singleton, Call.inside, h.start]
  omega

theorem stop_eq (h : c.StandsBetween names regions front back) :
    c.stop = c.inside + c.arguments.length + 1 := by
  rw [h.stop, Call.length_text, Call.inside]
  omega

end Call.StandsBetween

/-- The search starts behind the name of a call that stands in a text, in front of its
arguments. -/
theorem Call.StandsIn.searched {names : List (List Char)} (hname : IsIdentifier c.name)
    (h : c.StandsIn names source) :
    ∃ front before s, front.length = c.inside ∧ s.take c.arguments.length = c.arguments ∧
      c.Searched source front before s 0 c.arguments.length := by
  obtain ⟨front, back, htext, hbetween⟩ := h
  rw [Call.text_append] at htext
  have houtside : ∀ r ∈ literalRegions source,
      r.has (([] : List Char).length + front.length) = false := by
    rw [List.length_nil, Nat.zero_add, ← hbetween.start]
    exact hbetween.outside
  obtain ⟨before, hfront⟩ := (Remains.start source).of_outside
    (by rw [htext, List.length_append]; exact Nat.le_add_right _ _) houtside
  have htake : source.take front.length = front := by rw [htext, List.take_left]
  have hdrop : source.drop front.length = (c.name ++ ['(']) ++ (c.arguments ++ ')' :: back) := by
    conv_lhs => rw [htext]
    rw [List.drop_left]
  rw [List.nil_append, htake, hdrop] at hfront
  obtain ⟨before, hremains⟩ := hfront.append fun a ha => by
    rcases List.mem_append.1 ha with ha | ha
    · exact hname.startsNoLiteral a ha
    · rw [List.mem_singleton.1 ha]
      decide
  have hlength := hbetween.length_inside
  refine ⟨_, before, _, hlength, List.take_left, hremains, hbetween.closing, hlength.ge, ?_, ?_⟩
  · rw [hlength, hbetween.stop_eq]
  · intro k hk
    rw [hlength, Call.searchAt, Nat.add_sub_cancel_left, List.take_append_of_le_length hk]

theorem isPlain_iff : isPlain a = true ↔ isQuote a = false ∧ a ≠ '(' ∧ a ≠ ')' := by
  simp [isPlain, and_assoc]

theorem after_plain (hs : s.all isPlain = true) :
    (ParenState.code depth).after s = .code depth := by
  induction s with
  | nil => rfl
  | cons a s ih =>
      rw [List.all_cons, Bool.and_eq_true] at hs
      obtain ⟨hquote, hopen, hclose⟩ := isPlain_iff.1 hs.1
      rw [ParenState.after_cons, ParenState.step_code, if_neg (Bool.eq_false_iff.1 hquote),
        if_neg hopen, if_neg hclose]
      exact ih hs.2

/-- Comments without quotes and parentheses are ignored. -/
theorem Call.StandsIn.ignoresComments {names : List (List Char)} (h : c.StandsIn names source)
    (hplain : c.HasPlainComments source) : c.IgnoresComments source := by
  obtain ⟨front, back, htext, hbetween⟩ := h
  have hend := hbetween.stop_eq
  have hbehind : source.drop c.inside = c.arguments ++ ')' :: back := by
    rw [htext, Call.text_append, ← List.append_assoc, ← hbetween.length_inside, List.drop_left]
  intro r hr hcomment hinside hcode
  have hlt : r.start < r.stop := start_lt_stop_of_mem hr
  have hfrom : c.inside ≤ r.start := hinside.1
  have hclosing := hinside.2
  have hdrop : source.drop r.start = (c.arguments ++ ')' :: back).drop (r.start - c.inside) := by
    rw [← hbehind, List.drop_drop, Nat.add_sub_cancel' hfrom]
  have hstop : r.stop < c.stop := by
    by_contra hge
    -- otherwise the parenthesis of the call is part of the comment
    have hparen : ')' ∈ (source.drop r.start).take (r.stop - r.start) := by
      refine List.mem_of_getElem? (i := c.stop - 1 - r.start) ?_
      rw [List.getElem?_take_of_lt (by omega), hdrop, List.getElem?_drop,
        List.getElem?_append_right (by omega)]
      have hzero : r.start - c.inside + (c.stop - 1 - r.start) - c.arguments.length = 0 := by omega
      rw [hzero]
      rfl
    have hpass := List.all_eq_true.1 (hplain r hr hcomment hinside) ')' hparen
    exact (isPlain_iff.1 hpass).2.2 rfl
  obtain ⟨depth, hdepth⟩ := ParenState.eq_code_of_isCode hcode
  have hcomment' : (c.arguments.drop (r.start - c.inside)).take (r.stop - r.start) =
      (source.drop r.start).take (r.stop - r.start) := by
    rw [hdrop, List.drop_append_of_le_length (by omega), List.take_append_of_le_length]
    rw [List.length_drop]
    omega
  have hcut : r.stop - c.inside = (r.start - c.inside) + (r.stop - r.start) := by omega
  refine ⟨hstop, ?_⟩
  rw [hdepth, Call.searchAt, hcut, List.take_add, ParenState.after_append, hcomment',
    ← Call.searchAt, hdepth]
  exact after_plain (hplain r hr hcomment hinside)

namespace Registry

/-- Where a replaced call ends. As long as the search for its closing parenthesis is outside strings
again behind each comment among the arguments, the parenthesis lies in no literal, and what is read
next is not inside one. As long as comments leave the search as it is, the parenthesis also closes
the code among the arguments; and comments without quotes and parentheses do. -/
theorem closing_outside_literals {r : Registry} {source : String}
    (hnames : ∀ name ∈ r.names, IsIdentifier name.toList) (hc : c ∈ spans r.names source) :
    (c.LeavesComments source.toList →
        (∀ x ∈ literalRegions source.toList, x.has (c.stop - 1) = false) ∧
          ∀ x ∈ literalRegions source.toList, ¬ (x.start < c.stop ∧ c.stop < x.stop)) ∧
      (c.IgnoresComments source.toList →
        c.LeavesComments source.toList ∧ Closes 0 (c.code source.toList)) ∧
      (c.HasPlainComments source.toList → c.IgnoresComments source.toList) := by
  have hstands := standsIn_calls c hc
  have hname : IsIdentifier c.name := by
    obtain ⟨_, _, _, hbetween⟩ := hstands
    have hidentifier := hnames _ (ofList_mem_of_mem_byLength hbetween.name)
    rwa [String.toList_ofList] at hidentifier
  obtain ⟨front, before, s, hlength, htake, hsearched⟩ := hstands.searched hname
  refine ⟨fun hleaves => ?_, fun hignores => ⟨hignores.leavesComments, ?_⟩,
    hstands.ignoresComments⟩
  · have hends := hsearched.ends hleaves
    have hstop := hsearched.stop
    have hclosing : c.stop - 1 = front.length + c.arguments.length := by omega
    refine ⟨by rw [hclosing]; exact hends.outside, fun x hx hover => ?_⟩
    have hfree := hends.outside x hx
    rw [Bool.eq_false_iff, Ne, Region.has_iff] at hfree
    omega
  · have hends := hsearched.ends hignores.leavesComments
    have hcloses := hends.closes hignores
    rwa [htake, hlength] at hcloses

/-- A comment with two apostrophes, a parenthesis in a string, and a plain comment. -/
def commentedCalls : String := "a: f(/* it's Bob's */ \")\", (1)) + f(2 /* , */)"

def apostrophes : Call := ⟨3, "f".toList, "/* it's Bob's */ \")\", (1)".toList, 31⟩

def plainComment : Call := ⟨34, "f".toList, "2 /* , */".toList, 46⟩

theorem spans_commentedCalls :
    spans constantRegistry.names commentedCalls = [apostrophes, plainComment] := by
  rw [spans, byLength_constant]
  decide +kernel

theorem closing_outside_literals_commented :
    (∀ name ∈ constantRegistry.names, IsIdentifier name.toList) ∧
      apostrophes ∈ spans constantRegistry.names commentedCalls ∧
      apostrophes.LeavesComments commentedCalls.toList ∧
      apostrophes.IgnoresComments commentedCalls.toList ∧
      (∀ x ∈ literalRegions commentedCalls.toList, x.has 30 = false) ∧
      Closes 0 (apostrophes.code commentedCalls.toList) ∧
      plainComment ∈ spans constantRegistry.names commentedCalls ∧
      plainComment.HasPlainComments commentedCalls.toList ∧
      plainComment.IgnoresComments commentedCalls.toList := by
  have hmem : apostrophes ∈ spans constantRegistry.names commentedCalls := by
    rw [spans_commentedCalls]
    exact List.mem_cons_self
  have hmem' : plainComment ∈ spans constantRegistry.names commentedCalls := by
    rw [spans_commentedCalls]
    exact List.mem_cons_of_mem _ List.mem_cons_self
  have hignores : apostrophes.IgnoresComments commentedCalls.toList := by decide +kernel
  have hplain : plainComment.HasPlainComments commentedCalls.toList := by decide +kernel
  obtain ⟨hends, hcloses, -⟩ := closing_outside_literals isIdentifier_constant hmem
  obtain ⟨-, -, hplainIgnores⟩ := closing_outside_literals isIdentifier_constant hmem'
  obtain ⟨hleaves, hcode⟩ := hcloses hignores
  exact ⟨isIdentifier_constant, hmem, hleaves, hignores, (hends hleaves).1, hcode, hmem', hplain,
    hplainIgnores hplain⟩

/-- A parenthesis in a comment ends the call inside the comment, and one that opens has it reach
further. -/
theorem expand_comment :
    spans constantRegistry.names "f(/* ) */ 1)" = [⟨0, "f".toList, "/* ".toList, 6⟩] ∧
      literalRegions "f(/* ) */ 1)".toList = [⟨2, 9⟩] ∧
      constantRegistry.expand "f(/* ) */ 1)" = .ok ⟨"x */ 1)", true⟩ ∧
      constantRegistry.expand "f(/* ( */ 1) f(2))" = .ok ⟨"x", true⟩ := by
  have hspans : ∀ source, spans constantRegistry.names source =
      calls ["f".toList] source.toList := by
    intro source
    rw [spans, byLength_constant]
  refine ⟨?_, by decide +kernel, ?_, ?_⟩
  · rw [hspans]
    decide +kernel
  all_goals
    rw [expand_eq, hspans]
    decide +kernel

end Registry

end StyleBuild.Substitution
