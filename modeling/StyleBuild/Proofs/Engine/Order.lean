import StyleBuild.Proofs.Engine.Answers

/-!
# The order of questions

Two questions in a row need not have the same answers in both orders. What the
first one leaves behind is the path it found: its answer, for every spelling of
that path, and its directory, below which the token of the other path may be
found. `Diverts` says that one of the two changes the answer to the other
question, and nothing else does (`answer?_take_eq_iff`). So the order of two
questions does not matter exactly when neither diverts the other
(`answers_swap_iff`).

A file below the top of the roots is found for a path in a directory as soon as
some other file was found in that directory, and not before (`answers_diverted`).
-/

namespace StyleBuild

open Text

namespace ImportFiles

/-- Once `u` is answered, `t` has another answer. -/
inductive Diverts (s : ImportFiles) (u t : Turn) : Prop where
  /-- The two spell one path, and its first spelling decides. -/
  | spelling (hit : ResolvedImport) (hsame : u.path.components = t.path.components)
      (hnew : s.known? u.path = none) (hhit : u.answer? s = some hit)
      (hother : t.answer? s ≠ some hit)
  /-- The token of `t` is found below the directory of `u`, and below no longer one. -/
  | directory (hit hit' : ResolvedImport) (dir : Path) (rest : List Char)
      (hdiffer : u.path.components ≠ t.path.components)
      (hnew : s.known? u.path = none) (hhit : u.answer? s = some hit)
      (hdir : u.path.parent? = some dir) (hne : withSlashes dir.chars ≠ [])
      (hunknown : s.known? t.path = none)
      (htoken : IsToken t.path (withSlashes dir.chars ++ '/' :: rest))
      (hmiss : t.request.importer.resolve
        (String.ofList (withSlashes dir.chars ++ '/' :: rest)) = none)
      (hbelow : t.request.importer.resolve (String.ofList rest) = some hit')
      (hlongest : ∀ dir' ∈ s.directories, ∀ rest', (withSlashes dir.chars).length < dir'.length →
        withSlashes dir.chars ++ '/' :: rest = dir' ++ '/' :: rest' →
          t.request.importer.resolve (String.ofList rest') = none)
      (hother : t.answer? s ≠ some hit')

variable {s s' : ImportFiles} {t u : Turn} {hit : ResolvedImport}

/-- An answer depends on the paths that were found. -/
theorem answer?_congr (t : Turn) (h : s.resolved = s'.resolved) : t.answer? s = t.answer? s' := by
  have hknown : s.known? t.path = s'.known? t.path := by rw [known?, known?, h]
  cases hfound : s.known? t.path with
  | some hit => rw [answer?_of_known? hfound, answer?_of_known? (hknown.symm.trans hfound)]
  | none =>
      have hdirectories : s.directories = s'.directories := by rw [directories, directories, h]
      rw [answer?_of_known?_eq_none hfound, answer?_of_known?_eq_none (hknown.symm.trans hfound),
        find_eq, find_eq, tokensFor, tokensFor, hdirectories]

theorem resolved_take_of_new (hnew : s.known? u.path = none) (hhit : u.answer? s = some hit) :
    (u.take s).resolved = s.resolved ++ [(u.path, hit)] := by
  rw [resolved_take, hnew, hhit]
  rfl

/-- A path that is found brings its directory. -/
theorem mem_directories_take_iff (hnew : s.known? u.path = none) (hhit : u.answer? s = some hit)
    {dir : List Char} : dir ∈ (u.take s).directories ↔ dir ∈ s.directories ∨
      (dir ≠ [] ∧ ∃ parent, u.path.parent? = some parent ∧ dir = withSlashes parent.chars) := by
  simp only [mem_directories_iff, resolved_take_of_new hnew hhit, List.mem_append,
    List.mem_singleton, Prod.mk.injEq]
  constructor
  · rintro ⟨hne, p, hit', parent, hmem | ⟨rfl, rfl⟩, hparent⟩
    · exact .inl ⟨hne, p, hit', parent, hmem, hparent⟩
    · exact .inr ⟨hne, parent, hparent⟩
  · rintro (⟨hne, p, hit', parent, hmem, hparent⟩ | ⟨hne, parent, hparent⟩)
    · exact ⟨hne, p, hit', parent, .inl hmem, hparent⟩
    · exact ⟨hne, u.path, hit, parent, .inr ⟨rfl, rfl⟩, hparent⟩

/-- A turn that diverts another one changes its answer. -/
theorem Diverts.answer?_ne (h : Diverts s u t) : t.answer? (u.take s) ≠ t.answer? s := by
  cases h with
  | spelling hit hsame hnew hhit hother =>
      have hknown : (u.take s).known? t.path = some hit := by
        rw [known?_take, if_pos hsame, ← known?_congr s hsame, hnew, hhit]
        rfl
      rw [answer?_of_known? hknown]
      exact hother.symm
  | directory hit hit' dir rest hdiffer hnew hhit hdir hne hunknown htoken hmiss hbelow hlongest
      hother =>
      have hknown : (u.take s).known? t.path = none := by
        rw [known?_take, if_neg hdiffer, hunknown]
        rfl
      have hfound : t.answer? (u.take s) = some hit' := by
        rw [answer?_of_known?_eq_none hknown]
        refine find_eq_some_iff.2 ⟨_, htoken, .below hmiss (withSlashes dir.chars) rest
          ((mem_directories_take_iff hnew hhit).2 (.inr ⟨hne, dir, hdir, rfl⟩)) rfl hbelow ?_⟩
        intro dir' hdir' rest' hlonger htext
        rcases (mem_directories_take_iff hnew hhit).1 hdir' with hold | ⟨-, parent, hparent, rfl⟩
        · exact hlongest dir' hold rest' hlonger htext
        · rw [hdir] at hparent
          cases hparent
          exact absurd hlonger (Nat.lt_irrefl _)
      rw [hfound]
      exact hother.symm

/-- What is found stays found when more directories are known. -/
theorem isSome_find_take (hnew : s.known? u.path = none) (hhit : u.answer? s = some hit)
    {resolve : String → Option ResolvedImport} {p : Path}
    (h : (s.find resolve p).isSome = true) : ((u.take s).find resolve p).isSome = true := by
  obtain ⟨token, htoken, hfound⟩ := isSome_find_iff.1 h
  refine isSome_find_iff.2 ⟨token, htoken, hfound.imp_right ?_⟩
  rintro ⟨dir, hdir, hrest⟩
  exact ⟨dir, (mem_directories_take_iff hnew hhit).2 (.inl hdir), hrest⟩

/-- A look-up finds something else below the new directory only. -/
theorem diverts_of_find_ne (hdiffer : u.path.components ≠ t.path.components)
    (hnew : s.known? u.path = none) (hhit : u.answer? s = some hit)
    (hunknown : s.known? t.path = none)
    (h : (u.take s).find t.request.importer.resolve t.path ≠
      s.find t.request.importer.resolve t.path) : Diverts s u t := by
  have hanswer := answer?_of_known?_eq_none hunknown
  cases hfind : (u.take s).find t.request.importer.resolve t.path with
  | none =>
      refine absurd ?_ h
      rw [hfind, eq_comm, ← Option.not_isSome_iff_eq_none]
      intro hsome
      have hstill := isSome_find_take hnew hhit hsome
      rw [hfind] at hstill
      cases hstill
  | some hit' =>
      rw [hfind, ← hanswer] at h
      obtain ⟨token, htoken, hfound⟩ := find_eq_some_iff.1 hfind
      have hold : ∀ dir ∈ s.directories, dir ∈ (u.take s).directories := fun dir hdir =>
        (mem_directories_take_iff hnew hhit).2 (.inl hdir)
      cases hfound with
      | whole hwhole =>
          refine absurd ?_ h
          rw [hanswer, find_eq_some_iff.2 ⟨token, htoken, .whole hwhole⟩]
      | below hmiss dir rest hdir htext hbelow hlongest =>
          subst htext
          rcases (mem_directories_take_iff hnew hhit).1 hdir with hmem | ⟨hne, parent, hparent, rfl⟩
          · refine absurd ?_ h
            rw [hanswer, find_eq_some_iff.2 ⟨_, htoken, .below hmiss dir rest hmem rfl hbelow
              fun dir' hdir' => hlongest dir' (hold dir' hdir')⟩]
          · exact .directory hit hit' parent rest hdiffer hnew hhit hparent hne hunknown htoken
              hmiss hbelow (fun dir' hdir' => hlongest dir' (hold dir' hdir')) h.symm

/-- Only a turn that diverts another one changes its answer. -/
theorem diverts_of_answer?_ne (h : t.answer? (u.take s) ≠ t.answer? s) : Diverts s u t := by
  have hunknown : s.known? t.path = none := by
    rw [Option.eq_none_iff_forall_ne_some]
    intro hit hknown
    refine h ?_
    rw [answer?_of_known? hknown, answer?_of_known? (by rw [known?_take, hknown]; rfl)]
  have hresolved : (u.take s).resolved ≠ s.resolved := fun heq => h (answer?_congr t heq)
  rw [resolved_take] at hresolved
  cases hnew : s.known? u.path with
  | some hit =>
      rw [hnew] at hresolved
      exact absurd rfl hresolved
  | none =>
      cases hhit : u.answer? s with
      | none =>
          rw [hnew, hhit] at hresolved
          exact absurd (List.append_nil _) hresolved
      | some hit =>
          have hknown := known?_take u s t.path
          rw [hunknown, hhit, Option.none_or] at hknown
          by_cases hsame : u.path.components = t.path.components
          · rw [if_pos hsame] at hknown
            rw [answer?_of_known? hknown] at h
            exact .spelling hit hsame hnew hhit h.symm
          · rw [if_neg hsame] at hknown
            rw [answer?_of_known?_eq_none hknown, answer?_of_known?_eq_none hunknown] at h
            exact diverts_of_find_ne hsame hnew hhit hunknown h

/-- One question changes the answer to another one exactly when it diverts it. -/
theorem answer?_take_eq_iff : t.answer? (u.take s) = t.answer? s ↔ ¬ Diverts s u t :=
  ⟨fun h hdiverts => hdiverts.answer?_ne h,
    fun h => not_not.1 fun hne => h (diverts_of_answer?_ne hne)⟩

/-- Two questions have the same answers in both orders exactly when neither diverts the other one:
when the two paths are not spellings of one path that stand for different imports, and neither path
brings the directory below which the other one's token is found. -/
theorem answers_swap_iff (s : ImportFiles) (t u : Turn) :
    (t.answer? s, u.answer? (t.take s)) = (t.answer? (u.take s), u.answer? s) ↔
      ¬ Diverts s t u ∧ ¬ Diverts s u t := by
  rw [Prod.mk.injEq, eq_comm (a := t.answer? s), answer?_take_eq_iff, answer?_take_eq_iff, and_comm]

/-- There is no `sub/b.scss`; it is answered with `b.scss` when `sub/a.scss` was found before. -/
theorem answers_diverted :
    (askShelf "sub/b.scss").answer? empty = none ∧
      (askShelf "sub/b.scss").answer? ((askShelf "sub/a.scss").take empty) =
        some ⟨"theme/b.scss", ⟨"src/b.scss"⟩⟩ ∧
      (askShelf "sub/a.scss").answer? empty = some ⟨"theme/sub/a.scss", ⟨"src/sub/a.scss"⟩⟩ ∧
      (askShelf "sub/a.scss").answer? ((askShelf "sub/b.scss").take empty) =
        some ⟨"theme/sub/a.scss", ⟨"src/sub/a.scss"⟩⟩ := by
  have hfirst : (askShelf "sub/a.scss").answer? empty =
      some ⟨"theme/sub/a.scss", ⟨"src/sub/a.scss"⟩⟩ := by
    decide +kernel
  refine ⟨by decide +kernel, ?_, hfirst, by decide +kernel⟩
  have hdir : (askShelf "sub/a.scss").path.parent? = some ⟨"sub"⟩ := by
    decide +kernel
  have hdirectories : ((askShelf "sub/a.scss").take empty).directories = ["sub".toList] :=
    directories_of_singleton (resolved_take_empty hfirst) hdir (by decide)
  rw [answer?_of_known?_eq_none (by decide +kernel), find_eq, tokensFor, hdirectories]
  decide +kernel

end ImportFiles

end StyleBuild
