import StyleBuild.Proofs.LineComment.Insertion

/-!
# Line comments and literals

A line comment stands where a line starts, and where nothing is open for the
reading line by line. So it stands in no literal, as long as that reading sees
the literals that go over the end of a line (`SpansSeen`, and
`comments_outside_literals`). It sees neither a string there, which it ends with
its line, nor a comment behind the slashes of an address, where it does not read
on. In such a literal a line may get a comment (`comments_inside_literals`).
-/

namespace StyleBuild.LineComment

open Text Substitution

/-- Where the line with this number starts, of which the first one has the number one. -/
def lineStart (s : List Char) (number : Nat) : Nat :=
  ((keptLines s).take (number - 1)).flatten.length

/-- Two slashes that open no comment. -/
def IsAddress (s : List Char) (p : Nat) : Prop :=
  s[p]? = some '/' ∧ s[p + 1]? = some '/' ∧ ∀ r ∈ literalRegions s, r.has p = false

/-- An address stands on the line of `p`, in front of it. -/
def BehindAddress (s : List Char) (p : Nat) : Prop :=
  ∃ a < p, IsAddress s a ∧ ∀ e < p, a < e → s[e]? ≠ some '\n'

/-- A literal with a line feed in front of `position` is a comment, and no address stands in front
of it on its line. -/
structure SpansSeen (s : List Char) (position : Nat) : Prop where
  strings : ∀ r ∈ literalRegions s, ∀ p < position, r.has p = true → s[p]? = some '\n' →
    s[r.start]? = some '/'
  addresses : ∀ r ∈ literalRegions s, ∀ p < position, r.has p = true → s[p]? = some '\n' →
    ¬ BehindAddress s r.start

instance (s : List Char) (p : Nat) : Decidable (IsAddress s p) :=
  inferInstanceAs (Decidable (_ ∧ _ ∧ _))

instance (s : List Char) (p : Nat) : Decidable (BehindAddress s p) :=
  inferInstanceAs (Decidable (∃ a < p, IsAddress s a ∧ ∀ e < p, a < e → s[e]? ≠ some '\n'))

instance (s : List Char) (position : Nat) : Decidable (SpansSeen s position) :=
  decidable_of_iff (_ ∧ _) ⟨fun h => ⟨h.1, h.2⟩, fun h => ⟨h.strings, h.addresses⟩⟩

variable {number N position : Nat} {n : Nesting} {last before : Option Char}
  {source front s t line : List Char} {c : Char} {r : Region}

namespace Nesting

/-- A block comment that ends further back is open. -/
theorem inComment_scanFrom (hin : n.inComment = true)
    (h : s.length < blockCommentLength (s ++ t)) :
    (n.scanFrom none last false s).inComment = true := by
  induction s generalizing n last with
  | nil => exact (inComment_close n last).trans hin
  | cons c s ih =>
      by_cases hend : c = '*' ∧ (s ++ t).head? = some '/'
      · -- the end goes across both texts, since the comment is longer than the first one
        obtain ⟨rfl, hhead⟩ := hend
        obtain ⟨u, hu⟩ := List.head?_eq_some_iff.1 hhead
        rw [List.cons_append, hu, blockCommentLength, List.length_cons] at h
        rw [List.eq_nil_of_length_eq_zero (Nat.lt_one_iff.1 (Nat.lt_of_succ_lt_succ h)),
          scanFrom_comment hin (by decide) (by simp), scanFrom_nil]
        exact (inComment_close n last).trans hin
      · rw [List.cons_append, blockCommentLength_cons hend, List.length_cons, Nat.add_comm 1] at h
        have hlt := Nat.lt_of_succ_lt_succ h
        by_cases hc : c = '\n'
        · rw [hc, scanFrom_newline]
          exact ih ((inComment_close n last).trans hin) hlt
        · rw [scanFrom_comment hin hc]
          · exact ih hin hlt
          · rintro ⟨rfl, hhead⟩
            exact hend ⟨rfl, by rw [List.head?_append, hhead]; rfl⟩

/-- At the end of a line, a comment that ends further back is open. -/
theorem inComment_of_lt (hout : n.inComment = false) (hline : s.getLast? = some '\n')
    (hhead : s.head? = some '/') (h : s.length < literalLength before (s ++ t)) :
    (n.scanFrom none last false s).inComment = true := by
  obtain ⟨s, rfl⟩ := List.head?_eq_some_iff.1 hhead
  have hliteral : literalLength before ('/' :: s ++ t) ≠ 0 := Nat.ne_zero_of_lt h
  rcases literal_cases hliteral with ⟨q, u, hq, heq, -⟩ | ⟨c, u, heq, hcomment⟩
  · cases heq
    rcases hq with hq | hq <;> cases hq
  · rcases s with _ | ⟨d, s⟩
    · cases hline
    · rw [List.cons_append, List.cons_append] at h heq hcomment
      cases heq
      rw [List.length_cons, List.length_cons] at h
      rcases hcomment with ⟨rfl, hlength⟩ | ⟨rfl, hlength⟩
      · rw [scanFrom_opens_comment hout]
        exact inComment_scanFrom (t := t) rfl (by omega)
      · have hnewline : '\n' ∈ s := by
          have hmem := List.mem_of_getLast? hline
          simpa using hmem
        obtain ⟨line, rest, rfl, hfree⟩ := List.eq_append_cons_of_mem hnewline
        rw [hlength, List.append_assoc, List.cons_append, lineCommentLength_append_newline hfree,
          List.length_append, List.length_cons] at h
        omega

end Nesting

namespace SpansSeen

/-- Behind an address, the end of its line lies in no literal. -/
theorem remains_address (h : SpansSeen source position)
    (hremains : Remains source front before ('/' :: '/' :: (line ++ '\n' :: t)))
    (haddress : literalLength before ('/' :: '/' :: (line ++ '\n' :: t)) = 0) (hline : '\n' ∉ line)
    (hposition : front.length + line.length + 2 < position) :
    ∃ before', Remains source (front ++ '/' :: '/' :: line) before' ('\n' :: t) := by
  have hnewline : source[front.length + (line.length + 2)]? = some '\n' := by
    rw [hremains.getElem?]
    simp
  have houtside : ∀ r ∈ literalRegions source,
      r.has (front.length + (line.length + 2)) = false := by
    intro r hr
    by_contra hhas
    rw [Bool.not_eq_false] at hhas
    obtain ⟨hstart, hstop⟩ := (Region.has_iff _ _).1 hhas
    -- a literal over the end of the line starts behind the slashes, which are in none
    have hopen := hremains.has_eq_false haddress
    have hbehind : front.length < r.start := by
      have hfree := hopen r hr
      rw [Bool.eq_false_iff, Ne, Region.has_iff] at hfree
      omega
    refine h.addresses r hr _ (by omega) hhas hnewline
      ⟨front.length, hbehind, ⟨hremains.getElem? 0, hremains.getElem? 1, hopen⟩, ?_⟩
    intro e hlt hgt he
    obtain ⟨i, rfl⟩ := Nat.exists_eq_add_of_le (Nat.le_of_lt hgt)
    have hchar : ('/' :: '/' :: line ++ '\n' :: t)[i]? = some '\n' :=
      (hremains.getElem? i).symm.trans he
    have hi : i < ('/' :: '/' :: line).length := by
      rw [List.length_cons, List.length_cons]
      omega
    rw [List.getElem?_append_left hi] at hchar
    have hmem := List.mem_of_getElem? hchar
    simp [hline] at hmem
  have hcut := hremains.of_outside (n := line.length + 2) (by simp) houtside
  simpa using hcut

end SpansSeen

/-- Of the text above `position`, at the start of a line, `s` is left to read. No literal is open
there, and for the reading line by line no comment is, there and at `position`. -/
structure LeftAbove (source : List Char) (position : Nat) (t front : List Char)
    (before : Option Char) (n : Nesting) (last : Option Char) (s : List Char) : Prop where
  remains : Remains source front before (s ++ t)
  length : front.length + s.length = position
  line : s ≠ [] → s.getLast? = some '\n'
  opened : n.inComment = false
  closed : (n.scanFrom none last false s).inComment = false

namespace LeftAbove

variable (hseen : SpansSeen source position)

theorem code (h : LeftAbove source position t front before n last (c :: s))
    (hcode : literalLength before (c :: s ++ t) = 0) (hslashes : ¬ (c = '/' ∧ s.head? = some '/')) :
    ∃ n' last', LeftAbove source position t (front ++ [c]) (some c) n' last' s := by
  obtain ⟨hdouble, hsingle, hstar⟩ := ne_quote_of_literalLength hcode
  have hopen : ¬ (c = '/' ∧ s.head? = some '*') := fun hcomment =>
    hstar ⟨hcomment.1, List.head?_append.trans (by rw [hcomment.2]; rfl)⟩
  obtain ⟨n', last', -, -, hout, hscan⟩ :=
    Nesting.scanFrom_code h.opened last ⟨hdouble, hsingle, hopen⟩ hslashes
  refine ⟨n', last', h.remains.code hcode, ?_, fun hs => ?_, hout, hscan ▸ h.closed⟩
  · rw [← h.length, List.length_append, List.length_singleton, List.length_cons]
    omega
  · exact (List.getLast?_append_of_ne_nil [c] hs).symm.trans (h.line (List.cons_ne_nil c s))

include hseen

/-- Behind the slashes of an address, it goes on at the end of the line. -/
theorem address (h : LeftAbove source position t front before n last ('/' :: '/' :: s))
    (hcode : literalLength before ('/' :: '/' :: s ++ t) = 0) :
    ∃ front' before' s', s'.length < s.length + 2 ∧
      LeftAbove source position t front' before' n last s' := by
  have hend := h.line (List.cons_ne_nil _ _)
  have hnewline : '\n' ∈ s := by simpa using List.mem_of_getLast? hend
  obtain ⟨line, rest, rfl, hfree⟩ := List.eq_append_cons_of_mem hnewline
  have hlength := h.length
  have hremains := h.remains
  have hclosed := h.closed
  rw [Nesting.scanFrom_lineComment h.opened, lineCommentLength_append_newline hfree,
    List.drop_left] at hclosed
  simp only [List.cons_append, List.append_assoc] at hremains hcode
  simp only [List.length_cons, List.length_append] at hlength
  obtain ⟨before', hbehind⟩ := hseen.remains_address hremains hcode hfree (by omega)
  refine ⟨_, before', '\n' :: rest, ?_, hbehind, ?_, fun _ => ?_, h.opened, hclosed⟩
  · simp only [List.length_cons, List.length_append]
    omega
  · simp only [List.length_cons, List.length_append]
    omega
  · have hsuffix :=
      List.getLast?_append_of_ne_nil ('/' :: '/' :: line) (List.cons_ne_nil '\n' rest)
    exact hsuffix.symm.trans hend

/-- A literal that starts above and is no comment has no line feed above. -/
theorem newline_notMem (h : LeftAbove source position t front before n last s)
    (hliteral : literalLength before (s ++ t) ≠ 0) (hhead : (s ++ t).head? ≠ some '/') :
    '\n' ∉ s.take (literalLength before (s ++ t)) := by
  refine h.remains.newline_notMem (fun r hr p hp => hseen.strings r hr p ?_) hliteral hhead
  rwa [← h.length]

/-- A literal that starts above ends above. -/
theorem literalLength_le (h : LeftAbove source position t front before n last s) (hs : s ≠ [])
    (hliteral : literalLength before (s ++ t) ≠ 0) : literalLength before (s ++ t) ≤ s.length := by
  by_contra hlt
  rw [Nat.not_le] at hlt
  have hend := h.line hs
  by_cases hhead : (s ++ t).head? = some '/'
  · rw [List.head?_append_of_ne_nil s hs] at hhead
    have hopen : (n.scanFrom none last false s).inComment = true :=
      Nesting.inComment_of_lt h.opened hend hhead hlt
    rw [h.closed] at hopen
    cases hopen
  · have hfree := h.newline_notMem hseen hliteral hhead
    rw [List.take_of_length_le (Nat.le_of_lt hlt)] at hfree
    exact hfree (List.mem_of_getLast? hend)

theorem literal (h : LeftAbove source position t front before n last s) (hs : s ≠ [])
    (hliteral : literalLength before (s ++ t) ≠ 0) :
    ∃ front' before' n' last' s', s'.length < s.length ∧
      LeftAbove source position t front' before' n' last' s' := by
  have hle := h.literalLength_le hseen hs hliteral
  have hsame := literalLength_of_append hle
  have hremains := h.remains.literal hliteral
  rw [List.take_append_of_le_length hle, List.drop_append_of_le_length hle, ← hsame] at hremains
  rw [← hsame] at hliteral hle
  have hline : s.head? ≠ some '/' → '\n' ∉ s.take (literalLength before s) := fun hhead => by
    rw [hsame]
    exact h.newline_notMem hseen (hsame ▸ hliteral) (by rwa [List.head?_append_of_ne_nil s hs])
  obtain ⟨n', last', -, -, hend, hscan⟩ := Nesting.scanFrom_literal h.opened last hliteral hline
  have hclosed := h.closed
  rw [hscan] at hclosed
  -- a comment that is not closed reaches to `position`, where none is open
  have hout : n'.inComment = false := by
    rcases hend with hout | hnil
    · exact hout
    · rw [hnil, Nesting.scanFrom_nil] at hclosed
      exact (Nesting.inComment_close n' last').symm.trans hclosed
  refine ⟨_, _, n', last', _, ?_, hremains, ?_, fun hrest => ?_, hout, hclosed⟩
  · rw [List.length_drop]
    omega
  · rw [← h.length, List.length_append, List.length_take_of_le hle, List.length_drop]
    omega
  · have hcut := List.getLast?_append_of_ne_nil (s.take (literalLength before s)) hrest
    rw [List.take_append_drop] at hcut
    exact hcut.symm.trans (h.line hs)

/-- Reading goes on behind a character of code, behind a literal, or at the end of the line of an
address. -/
theorem exists_shorter (h : LeftAbove source position t front before n last s) (hs : s ≠ []) :
    ∃ front' before' n' last' s', s'.length < s.length ∧
      LeftAbove source position t front' before' n' last' s' := by
  rcases eq_or_ne (literalLength before (s ++ t)) 0 with hcode | hliteral
  · obtain ⟨c, s, rfl⟩ := List.exists_cons_of_ne_nil hs
    by_cases hslashes : c = '/' ∧ s.head? = some '/'
    · obtain ⟨rfl, hhead⟩ := hslashes
      obtain ⟨s, rfl⟩ := List.head?_eq_some_iff.1 hhead
      obtain ⟨front', before', s', hlt, hleft⟩ := h.address hseen hcode
      exact ⟨front', before', n, last, s', hlt, hleft⟩
    · obtain ⟨n', last', hleft⟩ := h.code hcode hslashes
      exact ⟨_, _, n', last', s, Nat.lt_succ_self _, hleft⟩
  · exact h.literal hseen hs hliteral

/-- In the end nothing is left above, and no literal is open. -/
theorem not_inside (h : LeftAbove source position t front before n last s)
    (hr : r ∈ literalRegions source) : ¬ (r.start < position ∧ position < r.stop) := by
  induction hlength : s.length using Nat.strongRecOn generalizing front before n last s with
  | ind m ih =>
      subst hlength
      rcases eq_or_ne s [] with rfl | hs
      · rw [← h.length]
        exact h.remains.not_inside hr
      · obtain ⟨front', before', n', last', s', hlt, hleft⟩ := h.exists_shorter hseen hs
        exact ih _ hlt hleft rfl

end LeftAbove

theorem lineStart_outside (h : N ∈ ruleLines s) (hseen : SpansSeen s (lineStart s N))
    (hr : r ∈ literalRegions s) : ¬ (r.start < lineStart s N ∧ lineStart s N < r.stop) := by
  obtain ⟨k, line, hline, rfl, hbetween, -⟩ := mem_ruleLinesFrom_iff.1 h
  obtain ⟨hk, -⟩ := List.getElem?_eq_some_iff.1 hline
  have hlines : (keptLines s).take (1 + k - 1) = (keptLines s).take k := by
    rw [Nat.add_sub_cancel_left]
  have habove : s = ((keptLines s).take k).flatten ++ ((keptLines s).drop k).flatten := by
    rw [← List.flatten_append, List.take_append_drop, flatten_keptLines]
  have hclosed := Nesting.inComment_of_betweenStatements hbetween
  rw [← keptLines_flatten_take] at hclosed
  have hleft : LeftAbove s (lineStart s (1 + k)) ((keptLines s).drop k).flatten [] none
      Nesting.outside none ((keptLines s).take k).flatten :=
    { remains := habove ▸ Remains.start s
      length := by rw [lineStart, hlines, List.length_nil, Nat.zero_add]
      line := getLast?_flatten_take hk
      opened := rfl
      closed := (congrArg Nesting.inComment (Nesting.scan_eq _ _)).symm.trans hclosed }
  exact hleft.not_inside hseen hr

/-- An annotated text is its lines, with a comment before those in `ruleLines`. No such line starts
inside a literal, as long as the literals above that go over the end of a line are seen. -/
theorem comments_outside_literals (source file : String) :
    annotate source file =
        String.ofList (withComments file (ruleLines source.toList) 1 (keptLines source.toList)) ∧
      ∀ N ∈ ruleLines source.toList, SpansSeen source.toList (lineStart source.toList N) →
        ∀ r ∈ literalRegions source.toList,
          ¬ (r.start < lineStart source.toList N ∧ lineStart source.toList N < r.stop) :=
  ⟨annotate_eq source file, fun _ hN hseen _ hr => lineStart_outside hN hseen hr⟩

/-- An address, comments over two lines, with rules in them and behind them, and a string with an
escape and with slashes. -/
def spannedSheet : String :=
  "$a: b://c;\n/* d \x7b\n.e \x7b */\n" ++
    ".f \x7b g: 'h//\\'/*'; \x7d // /*\n.i, /*\n*/ .j \x7b\x7d\n.k \x7b"

theorem comments_outside_literals_spannedSheet :
    ruleLines spannedSheet.toList = [4, 5, 7] ∧
      SpansSeen spannedSheet.toList (lineStart spannedSheet.toList 7) ∧
      ∀ r ∈ literalRegions spannedSheet.toList, ¬ (r.start < lineStart spannedSheet.toList 7 ∧
        lineStart spannedSheet.toList 7 < r.stop) := by
  have hlines : ruleLines spannedSheet.toList = [4, 5, 7] := by decide +kernel
  have hseen : SpansSeen spannedSheet.toList (lineStart spannedSheet.toList 7) := by decide +kernel
  obtain ⟨-, houtside⟩ := comments_outside_literals spannedSheet "f.scss"
  exact ⟨hlines, hseen, houtside 7 (by rw [hlines]; decide) hseen⟩

/-- A string that goes on behind a backslash at the end of its line. -/
def continuedSheet : String := "$a: \"x\\\ny\";\n"

/-- A comment over two lines that starts behind the slashes of an address. -/
def hiddenSheet : String := "$a: x://y /*\nb \x7b\n*/\n"

/-- A string that goes over the end of its line gets a comment inside, and a comment does of which
the start is not read. -/
theorem comments_inside_literals :
    (⟨4, 10⟩ ∈ literalRegions continuedSheet.toList ∧ lineStart continuedSheet.toList 2 = 8 ∧
      annotate continuedSheet "f.scss" = "$a: \"x\\\n/* line 2, f.scss */\ny\";\n") ∧
    (⟨10, 19⟩ ∈ literalRegions hiddenSheet.toList ∧ lineStart hiddenSheet.toList 2 = 13 ∧
      annotate hiddenSheet "f.scss" = "$a: x://y /*\n/* line 2, f.scss */\nb \x7b\n*/\n") := by
  decide +kernel

end StyleBuild.LineComment
