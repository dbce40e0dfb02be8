import StyleBuild.LineComment
import StyleBuild.Proofs.Substitution.Literals
import StyleBuild.Proofs.Text.Lines

/-!
# Reading on over the lines

Lines are read one by one, and what is open between two of them is carried on.
`scanFrom` is the nesting at the end of a text that is read from anywhere inside
a line on; it goes on from one character to the next (`scanFrom_cons`), and from
the end of a line to the next line (`scanFrom_newline`). From there follow the
steps over a string, a block comment, a line comment, and a character of code.
-/

namespace StyleBuild.LineComment

open Text Substitution

namespace Nesting

/-- The nesting once a line has ended, of which this was the last character of code. -/
def close : Nesting × Option Char → Nesting
  | (n, none) => n
  | (n, some last) => { n with atStart := last ≠ ',' }

/-- The nesting at the end of a text, of which the first line is read from here on. -/
def scanFrom (n : Nesting) (quote last : Option Char) (skip : Bool) (s : List Char) : Nesting :=
  match keptLines s with
  | [] => close (n, last)
  | line :: lines => lines.foldl feed (close (n.readLine quote last skip line))

/-- The nesting at the end of a text. -/
def scan (n : Nesting) (s : List Char) : Nesting := (keptLines s).foldl feed n

variable {n n' : Nesting} {quote quote' last last' : Option Char} {skip skip' : Bool} {c q : Char}
  {s : List Char}

theorem feed_eq (n : Nesting) (line : List Char) :
    n.feed line = close (n.readLine none none false line) := by
  unfold feed close
  rfl

theorem scan_eq (n : Nesting) (s : List Char) : n.scan s = n.scanFrom none none false s := by
  unfold scan scanFrom
  cases keptLines s with
  | nil => rfl
  | cons line lines => rw [List.foldl_cons, feed_eq]

@[simp] theorem scanFrom_nil : n.scanFrom quote last skip [] = close (n, last) := rfl

theorem readLine_newline (n : Nesting) (last : Option Char) :
    n.readLine none last false ['\n'] = (n, last) := by
  cases hin : n.inComment <;> simp [readLine, hin, code, isBlank]

/-- A line feed ends the line. -/
theorem scanFrom_newline (n : Nesting) (last : Option Char) (s : List Char) :
    n.scanFrom none last false ('\n' :: s) = (close (n, last)).scanFrom none none false s := by
  rw [scanFrom, keptLines_newline, ← scan_eq]
  simp only [readLine_newline]
  rfl

/-- Within a line, what is read of one character does not depend on more than the next one. -/
theorem scanFrom_cons (hc : c ≠ '\n')
    (h : ∀ t : List Char, t.head? = s.head? →
      n.readLine quote last skip (c :: t) = n'.readLine quote' last' skip' t) :
    n.scanFrom quote last skip (c :: s) = n'.scanFrom quote' last' skip' s := by
  rw [scanFrom, scanFrom, keptLines_cons hc]
  cases hlines : keptLines s with
  | nil =>
      rw [keptLines_eq_nil_iff.1 hlines] at h
      simp only [List.foldl_nil]
      rw [h [] rfl]
      rfl
  | cons l ls =>
      simp only
      rw [h l (head?_of_keptLines_eq hlines)]

theorem scanFrom_skip (hc : c ≠ '\n') :
    n.scanFrom quote last true (c :: s) = n.scanFrom quote last false s :=
  scanFrom_cons hc fun _ _ => rfl

section Comment

variable (hin : n.inComment = true)
include hin

theorem scanFrom_comment (hc : c ≠ '\n') (hend : ¬ (c = '*' ∧ s.head? = some '/')) :
    n.scanFrom none last false (c :: s) = n.scanFrom none last false s :=
  scanFrom_cons hc fun t ht => by
    rw [readLine, if_neg (by simp), if_pos hin, ht, if_neg hend]

theorem scanFrom_comment_end :
    n.scanFrom none last false ('*' :: '/' :: s) =
      { n with inComment := false }.scanFrom none last false s := by
  refine (scanFrom_cons (by decide) fun t ht => ?_).trans (scanFrom_skip (by decide))
  rw [readLine, if_neg (by simp), if_pos hin, ht, if_pos ⟨rfl, rfl⟩]

end Comment

section Code

variable (hout : n.inComment = false)
include hout

theorem scanFrom_escape :
    n.scanFrom (some q) last false ('\\' :: s) = n.scanFrom (some q) (some '\\') true s :=
  scanFrom_cons (by decide) fun t _ => by
    rw [readLine, if_neg (by simp), if_neg (by simp [hout])]
    simp only [if_pos]

theorem scanFrom_quoted (hc : c ≠ '\n') (hescape : c ≠ '\\') :
    n.scanFrom (some q) last false (c :: s) =
      n.scanFrom (if c = q then none else some q) (some c) false s :=
  scanFrom_cons hc fun t _ => by
    rw [readLine, if_neg (by simp), if_neg (by simp [hout])]
    simp only [if_neg hescape]

theorem scanFrom_opens_string (hq : q = '"' ∨ q = '\'') :
    n.scanFrom none last false (q :: s) = n.scanFrom (some q) (some q) false s := by
  refine scanFrom_cons (by rcases hq with rfl | rfl <;> decide) fun t _ => ?_
  rw [readLine, if_neg (by simp), if_neg (by simp [hout])]
  rcases hq with rfl | rfl <;> rfl

theorem scanFrom_opens_comment :
    n.scanFrom none last false ('/' :: '*' :: s) =
      { n with inComment := true }.scanFrom none last false s := by
  refine (scanFrom_cons (by decide) fun t ht => ?_).trans (scanFrom_skip (by decide))
  rw [readLine, if_neg (by simp), if_neg (by simp [hout])]
  simp [ht]

/-- The rest of a line behind two slashes is not read. -/
theorem scanFrom_lineComment (s : List Char) :
    n.scanFrom none last false ('/' :: '/' :: s) =
      n.scanFrom none last false (s.drop (lineCommentLength s)) := by
  have hbehind : s.drop (lineCommentLength s) = s.dropWhile (· ≠ '\n') := by
    have hdrop := @List.drop_left _ (s.takeWhile (· ≠ '\n')) (s.dropWhile (· ≠ '\n'))
    rwa [List.takeWhile_append_dropWhile] at hdrop
  have hread : ∀ t, n.readLine none last false ('/' :: '/' :: t) = (n, last) := fun t => by
    rw [readLine, if_neg (by simp), if_neg (by simp [hout])]
    rfl
  have hfront : '\n' ∉ s.takeWhile (· ≠ '\n') := fun h => by
    simpa using List.all_eq_true.1 List.all_takeWhile _ h
  have hslashes : '\n' ∉ '/' :: '/' :: s.takeWhile (· ≠ '\n') := by
    simpa using hfront
  conv_lhs => rw [← @List.takeWhile_append_dropWhile _ (· ≠ '\n') s]
  rw [hbehind]
  cases hrest : s.dropWhile (· ≠ '\n') with
  | nil =>
      rw [List.append_nil, scanFrom, keptLines_of_notMem hslashes (by simp)]
      simp only [List.foldl_nil, hread, scanFrom_nil]
  | cons c rest =>
      have hc : c = '\n' := by
        have hhead := List.head?_dropWhile_not (· ≠ '\n') s
        rw [hrest] at hhead
        simpa using hhead
      rw [hc, scanFrom_newline, ← scan_eq, scanFrom, ← List.cons_append, ← List.cons_append,
        keptLines_append_newline hslashes]
      simp only [List.cons_append, hread]
      rfl

end Code

/-- As many braces are open, and as many parentheses. -/
def SameDepths (n n' : Nesting) : Prop := n.braces = n'.braces ∧ n.parens = n'.parens

theorem SameDepths.trans {n₁ n₂ n₃ : Nesting} (h : SameDepths n₁ n₂) (h' : SameDepths n₂ n₃) :
    SameDepths n₁ n₃ :=
  ⟨h.1.trans h'.1, h.2.trans h'.2⟩

theorem sameDepths_close (n : Nesting) (last : Option Char) : SameDepths (close (n, last)) n := by
  cases last <;> exact ⟨rfl, rfl⟩

theorem inComment_close (n : Nesting) (last : Option Char) :
    (close (n, last)).inComment = n.inComment := by
  cases last <;> rfl

theorem inComment_code (n : Nesting) (c : Char) : (n.code c).inComment = n.inComment := by
  unfold code
  split_ifs <;> rfl

theorem SameDepths.code (h : SameDepths n n') (c : Char) : SameDepths (n.code c) (n'.code c) := by
  obtain ⟨hbraces, hparens⟩ := h
  unfold Nesting.code
  split_ifs <;> simp [SameDepths, hbraces, hparens]

/-- Whether the next line is at the start of a statement, when this one ends here. -/
def startsNext (n : Nesting) (last : Option Char) : Bool := (close (n, last)).atStart

theorem startsNext_code (n : Nesting) (c : Char) (last : Option Char) :
    (n.code c).startsNext last = n.startsNext last := by
  have hstart : (n.code c).atStart = n.atStart := by
    unfold code
    split_ifs <;> rfl
  cases last with
  | none => exact hstart
  | some c => rfl

/-- What is read later counts more than what was read before. -/
theorem startsNext_or (h : n'.startsNext last' = n.startsNext last) (later : Option Char) :
    n'.startsNext (later.or last') = n.startsNext (later.or last) := by
  cases later with
  | none => exact h
  | some c => rfl

/-- Over the rest of a string on one line, of which its quote is the last character when it is
closed. -/
theorem scanFrom_string (hout : n.inComment = false) (last : Option Char)
    (hline : '\n' ∉ s.take (quotedLength q s)) :
    ∃ last', n.scanFrom (some q) last false s =
        n.scanFrom none last' false (s.drop (quotedLength q s)) ∧
      (quotedLength q s < s.length → last' = some q) := by
  induction s using quoted_induction (q := q) generalizing last with
  | nil => exact ⟨last, rfl, fun h => absurd h (Nat.lt_irrefl 0)⟩
  | backslash => exact ⟨some '\\', scanFrom_escape hout, fun h => absurd h (Nat.lt_irrefl 1)⟩
  | escape c s ih =>
      rw [quotedLength_escape, Nat.add_comm] at hline ⊢
      rw [List.take_succ_cons, List.take_succ_cons, List.mem_cons, List.mem_cons, not_or,
        not_or] at hline
      obtain ⟨last', hih, hclosed⟩ := ih (some '\\') hline.2.2
      refine ⟨last', (scanFrom_escape hout).trans ((scanFrom_skip (Ne.symm hline.2.1)).trans hih),
        fun h => hclosed ?_⟩
      rw [List.length_cons, List.length_cons] at h
      omega
  | quote s hq =>
      rw [quotedLength_quote hq] at hline ⊢
      refine ⟨some q, ?_, fun _ => rfl⟩
      rw [scanFrom_quoted hout (fun hnewline => hline (by simp [hnewline])) hq, if_pos rfl]
      rfl
  | other c s hc hne ih =>
      rw [quotedLength_other hc hne, Nat.add_comm] at hline ⊢
      rw [List.take_succ_cons, List.mem_cons, not_or] at hline
      obtain ⟨last', hih, hclosed⟩ := ih (some c) hline.2
      refine ⟨last', ?_, fun h => hclosed ?_⟩
      · rw [scanFrom_quoted hout (Ne.symm hline.1) hc, if_neg hne, hih]
        rfl
      · rw [List.length_cons] at h
        omega

theorem scanFrom_quotation (hout : n.inComment = false) (last : Option Char)
    (hq : q = '"' ∨ q = '\'') (hline : '\n' ∉ (q :: s).take (1 + quotedLength q s)) :
    ∃ last', n.scanFrom none last false (q :: s) =
        n.scanFrom none last' false ((q :: s).drop (1 + quotedLength q s)) ∧
      (1 + quotedLength q s < (q :: s).length → last' = some q) := by
  rw [Nat.add_comm, List.take_succ_cons, List.mem_cons, not_or] at hline
  rw [scanFrom_opens_string hout hq, Nat.add_comm, List.drop_succ_cons, List.length_cons,
    Nat.add_lt_add_iff_right]
  exact scanFrom_string hout (some q) hline.2

/-- Over a block comment, which may take several lines and need not be closed. Nothing of it counts
as the last character of code. -/
theorem scanFrom_blockComment (hin : n.inComment = true) (last : Option Char) (s : List Char) :
    ∃ (n' : Nesting) (last' : Option Char), n'.SameDepths n ∧
      n'.startsNext last' = n.startsNext last ∧
      (n'.inComment = false ∨ s.drop (blockCommentLength s) = []) ∧
      n.scanFrom none last false s =
        n'.scanFrom none last' false (s.drop (blockCommentLength s)) := by
  fun_induction blockCommentLength s generalizing n last with
  | case1 => exact ⟨n, last, ⟨rfl, rfl⟩, rfl, Or.inr rfl, rfl⟩
  | case2 s =>
      refine ⟨{ n with inComment := false }, last, ⟨rfl, rfl⟩, ?_, Or.inl rfl,
        scanFrom_comment_end hin⟩
      cases last <;> rfl
  | case3 c s hopen ih =>
      rw [Nat.add_comm, List.drop_succ_cons]
      by_cases hc : c = '\n'
      · subst hc
        obtain ⟨n', last', hdepths, hstart, hend, heq⟩ :=
          ih ((inComment_close n last).trans hin) none
        refine ⟨n', last', hdepths.trans (sameDepths_close n last), hstart, hend, ?_⟩
        rw [scanFrom_newline, heq]
      · obtain ⟨n', last', hdepths, hstart, hend, heq⟩ := ih hin last
        refine ⟨n', last', hdepths, hstart, hend, ?_⟩
        rw [scanFrom_comment hin hc, heq]
        rintro ⟨rfl, hhead⟩
        obtain ⟨t, rfl⟩ := List.head?_eq_some_iff.1 hhead
        exact hopen t rfl rfl

/-- What counts as the last character of code behind a literal: the quote of a string that is
closed, and what counted before a comment. -/
def lastBehind (s : List Char) (last : Option Char) : Option Char :=
  if s.head? = some '/' then last else s.head?

/-- Over a literal, of which only a comment may take several lines. -/
theorem scanFrom_literal (hout : n.inComment = false) (last : Option Char) {before : Option Char}
    (hliteral : literalLength before s ≠ 0)
    (hline : s.head? ≠ some '/' → '\n' ∉ s.take (literalLength before s)) :
    ∃ (n' : Nesting) (last' : Option Char), n'.SameDepths n ∧
      (literalLength before s < s.length →
        n'.startsNext last' = n.startsNext (lastBehind s last)) ∧
      (n'.inComment = false ∨ s.drop (literalLength before s) = []) ∧
      n.scanFrom none last false s =
        n'.scanFrom none last' false (s.drop (literalLength before s)) := by
  rcases literal_cases hliteral with
    ⟨q, t, hq, rfl, hlength⟩ | ⟨c, t, rfl, ⟨rfl, hlength⟩ | ⟨rfl, hlength⟩⟩
  · rw [hlength] at hline ⊢
    have hslash : (q :: t).head? ≠ some '/' := by rcases hq with rfl | rfl <;> simp
    obtain ⟨last', heq, hclosed⟩ := scanFrom_quotation hout last hq (hline hslash)
    refine ⟨n, last', ⟨rfl, rfl⟩, fun h => ?_, Or.inl hout, heq⟩
    rw [hclosed h, lastBehind, if_neg hslash]
    rfl
  · rw [hlength, scanFrom_opens_comment hout, Nat.add_comm, List.drop_succ_cons,
      List.drop_succ_cons]
    obtain ⟨n', last', hdepths, hstart, hend, heq⟩ :=
      @scanFrom_blockComment { n with inComment := true } rfl last t
    refine ⟨n', last', hdepths, fun _ => ?_, hend, heq⟩
    rw [hstart]
    cases last <;> rfl
  · rw [hlength, scanFrom_lineComment hout, Nat.add_comm, List.drop_succ_cons,
      List.drop_succ_cons]
    exact ⟨n, last, ⟨rfl, rfl⟩, fun _ => rfl, Or.inl hout, rfl⟩

/-- Over a character that opens neither a string nor a comment. -/
theorem scanFrom_code (hout : n.inComment = false) (last : Option Char)
    (hcode : c ≠ '"' ∧ c ≠ '\'' ∧ ¬ (c = '/' ∧ s.head? = some '*'))
    (hslashes : ¬ (c = '/' ∧ s.head? = some '/')) :
    ∃ (n' : Nesting) (last' : Option Char), n'.SameDepths (n.code c) ∧
      n'.startsNext last' = n.startsNext (if isBlank c then last else some c) ∧
      n'.inComment = false ∧
      n.scanFrom none last false (c :: s) = n'.scanFrom none last' false s := by
  obtain ⟨hdouble, hsingle, hstar⟩ := hcode
  have hread : ∀ t : List Char, t.head? = s.head? → n.readLine none last false (c :: t) =
      (n.code c).readLine none (if isBlank c then last else some c) false t := fun t ht => by
    rw [readLine, if_neg (by simp), if_neg (by simp [hout])]
    simp only [ht]
    rw [if_neg hstar, if_neg hslashes, if_neg (not_or.2 ⟨hdouble, hsingle⟩)]
  by_cases hc : c = '\n'
  · subst hc
    exact ⟨close (n, last), none, sameDepths_close n last, rfl, (inComment_close n last).trans hout,
      scanFrom_newline n last s⟩
  · exact ⟨n.code c, _, ⟨rfl, rfl⟩, startsNext_code n c _, (inComment_code n c).trans hout,
      scanFrom_cons hc hread⟩

end Nesting

end StyleBuild.LineComment
