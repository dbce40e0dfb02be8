import StyleBuild.Proofs.Engine.Answers
import StyleBuild.Proofs.Files.Making

/-!
# What a file imports from its own directory

A file in a directory asks for what it imports below that directory. Where the
importer knows the import only as seen from the top of the roots, it is found
without the directory, which is known from the file itself. That takes the token
to begin with the directory, and a token does not always begin as its path does
(`ShortenedTo`): then the directory is of no use, and the import is found only
by chance (`isSome_answer?_join`).
-/

namespace StyleBuild

open Text

namespace Text

/-- An end of a text without a separator is an end of what is behind the separator. -/
theorem suffix_append_sep_iff {sep : Char} {t : List Char} (h : sep ∉ t) (a b : List Char) :
    t <:+ a ++ sep :: b ↔ t <:+ b := by
  refine ⟨?_, fun hb => hb.trans ((List.suffix_cons sep b).trans (List.suffix_append a _))⟩
  rintro ⟨front, hfront⟩
  rcases List.append_eq_append_iff.1 hfront with ⟨mid, -, rfl⟩ | ⟨mid, -, hmid⟩
  · exact absurd (by simp) h
  · rcases List.cons_eq_append_iff.1 hmid with ⟨-, rfl⟩ | ⟨mid', -, rfl⟩
    · exact absurd List.mem_cons_self h
    · exact List.suffix_append mid' t

end Text

namespace Path

/-- The text of a parent ends in a separator only when it is the root. -/
theorem getLast?_of_parent? {p dir : Path} (h : p.parent? = some dir) (hroot : dir.chars ≠ ['/']) :
    dir.chars.getLast? ≠ some '/' := by
  rcases eq_of_parent? h with ⟨-, -, rfl⟩ | ⟨init, s, hinit, rfl⟩
  · exact fun hlast => by cases hlast
  · rw [chars_ofChars] at hroot ⊢
    rcases List.eq_nil_or_concat' (trimSilent init) with hnil | ⟨front, last, hlast⟩
    · rw [hnil, joined, List.append_nil] at hroot ⊢
      rcases leadAndSegments_cases p.chars with ⟨hlead, -⟩ | hlead | ⟨hlead, -⟩
      · simp [hlead]
      · exact absurd hlead hroot
      · simp [hlead]
    · -- the last segment of the parent takes a step, so it is not empty
      have hloud : isSilent last = false := isSilent_of_trimSilent_eq hlast
      have hsegment : last ∈ (leadAndSegments p.chars).2 := by
        have hmem : last ∈ trimSilent (leadAndSegments p.chars).2 := by
          rw [hinit]
          exact List.mem_append_left _ ((trimSilent_isPrefix init).subset (hlast ▸ by simp))
        exact (trimSilent_isPrefix _).subset hmem
      obtain ⟨last', c, rfl⟩ : ∃ last' c, last = last' ++ [c] := by
        rcases List.eq_nil_or_concat' last with rfl | h
        · cases hloud
        · exact h
      obtain ⟨text, htext⟩ := suffix_joined_concat '/' front (last' ++ [c])
      rw [hlast, ← htext, ← List.append_assoc, ← List.append_assoc, List.getLast?_concat]
      intro hc
      exact notMem_of_mem_leadAndSegments hsegment (Option.some.inj hc ▸ by simp)

theorem chars_join_of_head? {r : List Char} (dir : Path) (h : r.head? = some '/') :
    (dir.join (ofChars r)).chars = r := by
  obtain ⟨rest, rfl⟩ := List.head?_eq_some_iff.1 h
  rw [join, chars_ofChars, chars_ofChars, joinChars]

/-- What is joined to a parent is behind a separator, the root being that separator. -/
theorem chars_join_parent? {p dir : Path} (h : p.parent? = some dir) (hne : dir.chars ≠ [])
    {r : List Char} (hr : r.head? ≠ some '/') :
    (dir.join (ofChars r)).chars =
      (if dir.chars = ['/'] then [] else dir.chars) ++ '/' :: r := by
  have hlast := getLast?_of_parent? h
  rw [join, chars_ofChars, chars_ofChars]
  unfold joinChars
  split
  · next rest => exact absurd rfl hr
  · split
    · next hnone => exact absurd (List.getLast?_eq_none_iff.1 hnone) hne
    · next hslash =>
      rw [not_imp_comm.1 hlast (not_not.2 hslash), if_pos rfl]
      rfl
    · next c hother hc =>
      rw [if_neg]
      intro hroot
      rw [hroot] at hc
      exact hother (Option.some.inj hc.symm)

end Path

namespace ImportFiles

/-- Tokens below the directory begin with `inner` and not with the directory: a token has no `./` in
front, and no second separator below the root. -/
inductive ShortenedTo (dir : Path) (inner : List Char) : Prop where
  | current (h : withSlashes dir.chars = "./".toList ++ inner)
  | root (h : dir.chars = ['/']) (hinner : inner = [])

variable {s : ImportFiles} {t : Turn} {p dir : Path} {hit found : ResolvedImport} {r : List Char}

theorem withSlashes_append (a b : List Char) :
    withSlashes (a ++ b) = withSlashes a ++ withSlashes b := List.map_append

theorem withSlashes_cons_slash (a : List Char) :
    withSlashes ('/' :: a) = '/' :: withSlashes a := rfl

theorem not_start_of_slash (a : List Char) : ¬ "./".toList <+: '/' :: a := by
  intro h
  cases (List.cons_prefix_cons.1 h).1

/-- Only the directory `.` has paths that begin with `./` without beginning so itself. -/
theorem eq_dot_of_start {text rest : List Char} (hne : text ≠ []) (hnot : ¬ "./".toList <+: text)
    (hstart : "./".toList <+: text ++ '/' :: rest) : text = ['.'] := by
  rw [show "./".toList = ['.', '/'] from rfl] at hstart hnot
  cases text with
  | nil => exact absurd rfl hne
  | cons c text =>
      rw [List.cons_append, List.cons_prefix_cons] at hstart
      obtain ⟨rfl, hstart⟩ := hstart
      cases text with
      | nil => rfl
      | cons c' text =>
          rw [List.cons_append, List.cons_prefix_cons] at hstart
          obtain ⟨rfl, -⟩ := hstart
          exact absurd (List.prefix_append ['.', '/'] text) hnot

theorem withSlashes_of_notMem {a : List Char} (h : '\\' ∉ a) : withSlashes a = a := by
  refine (List.map_congr_left fun c hc => ?_).trans a.map_id
  have hother : c ≠ '\\' := fun heq => h (heq ▸ hc)
  exact if_neg hother

/-- Ends without separators of either kind are kept. -/
theorem suffix_withSlashes_iff {e : List Char} (hslash : '/' ∉ e) (hback : '\\' ∉ e)
    (a : List Char) : e <:+ withSlashes a ↔ e <:+ a := by
  constructor
  · rintro ⟨front, hfront⟩
    obtain ⟨a₁, a₂, rfl, -, ha₂⟩ := List.map_eq_append_iff.1 hfront.symm
    have hnone : '\\' ∉ a₂ := by
      intro hmem
      exact hslash (ha₂ ▸ List.mem_map.2 ⟨_, hmem, rfl⟩)
    rw [← ha₂, show a₂.map _ = a₂ from withSlashes_of_notMem hnone]
    exact List.suffix_append a₁ a₂
  · rintro ⟨front, rfl⟩
    rw [withSlashes_append, withSlashes_of_notMem hback]
    exact List.suffix_append _ _

theorem extensions_withSlashes (hsource : ".scss".toList <:+ r)
    (hno : ¬ ".import.scss".toList <:+ r) :
    ".scss".toList <:+ withSlashes r ∧ ¬ ".import.scss".toList <:+ withSlashes r := by
  exact ⟨(suffix_withSlashes_iff (by decide) (by decide) r).2 hsource,
    mt (suffix_withSlashes_iff (by decide) (by decide) r).1 hno⟩

/-- The extension is that of the last segment. -/
theorem extensions_append_sep (front : List Char) (hsource : ".scss".toList <:+ r)
    (hno : ¬ ".import.scss".toList <:+ r) :
    ".scss".toList <:+ front ++ '/' :: withSlashes r ∧
      ¬ ".import.scss".toList <:+ front ++ '/' :: withSlashes r := by
  rw [suffix_append_sep_iff (by decide), suffix_append_sep_iff (by decide)]
  exact extensions_withSlashes hsource hno

/-- What is imported from the root is asked for as it is. -/
theorem isToken_of_head? (dir : Path) (hr : r.head? = some '/') (hsource : ".scss".toList <:+ r)
    (hno : ¬ ".import.scss".toList <:+ r) : IsToken (dir.join (.ofChars r)) (withSlashes r) := by
  obtain ⟨hscss, himport⟩ := extensions_withSlashes hsource hno
  have htext := Path.chars_join_of_head? dir hr
  obtain ⟨rest, rfl⟩ := List.head?_eq_some_iff.1 hr
  refine ⟨.inr ⟨?_, by rw [htext]⟩, hscss, himport⟩
  rw [htext]
  exact not_start_of_slash _

theorem isToken_of_shortenedTo {inner : List Char} (h : ShortenedTo dir inner)
    (hdir : p.parent? = some dir) (hr : r.head? ≠ some '/') (hsource : ".scss".toList <:+ r)
    (hno : ¬ ".import.scss".toList <:+ r) :
    IsToken (dir.join (.ofChars r)) (inner ++ '/' :: withSlashes r) := by
  obtain ⟨hscss, himport⟩ := extensions_append_sep inner hsource hno
  refine ⟨?_, hscss, himport⟩
  cases h with
  | current h =>
      have hne : dir.chars ≠ [] := fun hnil => by
        rw [hnil] at h
        cases h
      have hroot : dir.chars ≠ ['/'] := fun hroot => by
        rw [hroot] at h
        cases h
      rw [Path.chars_join_parent? hdir hne hr, if_neg hroot, withSlashes_append, h,
        withSlashes_cons_slash, List.append_assoc]
      exact .inl rfl
  | root h hinner =>
      rw [Path.chars_join_parent? hdir (by simp [h]) hr, if_pos h, hinner]
      exact .inr ⟨not_start_of_slash _, rfl⟩

/-- Below any other directory the token begins with the directory, unless that is `.`. -/
theorem isToken_of_not_shortenedTo (h : ∀ inner, ¬ ShortenedTo dir inner)
    (hdir : p.parent? = some dir) (hne : dir.chars ≠ []) (hr : r.head? ≠ some '/')
    (hsource : ".scss".toList <:+ r) (hno : ¬ ".import.scss".toList <:+ r) :
    IsToken (dir.join (.ofChars r)) (withSlashes r) ∨
      IsToken (dir.join (.ofChars r)) (withSlashes dir.chars ++ '/' :: withSlashes r) := by
  have hroot : dir.chars ≠ ['/'] := fun hroot => h [] (.root hroot rfl)
  have htext : withSlashes (dir.join (.ofChars r)).chars =
      withSlashes dir.chars ++ '/' :: withSlashes r := by
    rw [Path.chars_join_parent? hdir hne hr, if_neg hroot, withSlashes_append,
      withSlashes_cons_slash]
  by_cases hstart : "./".toList <+: withSlashes (dir.join (.ofChars r)).chars
  · left
    obtain ⟨hscss, himport⟩ := extensions_withSlashes hsource hno
    refine ⟨.inl ?_, hscss, himport⟩
    have hnot : ¬ "./".toList <+: withSlashes dir.chars :=
      fun ⟨inner, hinner⟩ => h inner (.current hinner.symm)
    rw [htext] at hstart ⊢
    rw [eq_dot_of_start (withSlashes_ne_nil hne) hnot hstart]
    rfl
  · right
    obtain ⟨hscss, himport⟩ := extensions_append_sep (withSlashes dir.chars) hsource hno
    exact ⟨.inr ⟨hstart, htext⟩, hscss, himport⟩

/-- What a path is answered with depends on its token. -/
theorem isSome_answer?_iff {token : List Char} (htoken : IsToken t.path token) :
    (t.answer? s).isSome = true ↔ (s.known? t.path).isSome = true ∨
      (t.request.importer.resolve (String.ofList token)).isSome = true ∨
      ∃ d ∈ s.directories, ∃ rest, token = d ++ '/' :: rest ∧
        (t.request.importer.resolve (String.ofList rest)).isSome = true := by
  cases hknown : s.known? t.path with
  | some hit => simp [answer?_of_known? hknown]
  | none =>
      rw [answer?_of_known?_eq_none hknown, isSome_find_iff]
      simp only [Option.isSome_none, Bool.false_eq_true, false_or]
      constructor
      · rintro ⟨token', htoken', hfound⟩
        obtain rfl := htoken.unique htoken'
        exact hfound
      · exact fun hfound => ⟨token, htoken, hfound⟩

/-- A file in a directory imports `r`, which the importer knows as seen from the top. The path
below the directory is answered, except when its token does not begin with the directory. In that
case the directory does not help: the path is answered when it was found before, when there is such
a file below the directory as well, or when another directory happens to help. -/
theorem isSome_answer?_join (hp : (p, hit) ∈ s.resolved) (hdir : p.parent? = some dir)
    (hne : dir.chars ≠ []) (hsource : ".scss".toList <:+ r) (hno : ¬ ".import.scss".toList <:+ r)
    (hfound : t.request.importer.resolve (String.ofList (withSlashes r)) = some found)
    (hpath : t.path = dir.join (.ofChars r)) :
    (r.head? = some '/' ∨ (∀ inner, ¬ ShortenedTo dir inner) → (t.answer? s).isSome = true) ∧
      ∀ inner, ShortenedTo dir inner → r.head? ≠ some '/' →
        ((t.answer? s).isSome = true ↔ (s.known? t.path).isSome = true ∨
          (t.request.importer.resolve
            (String.ofList (inner ++ '/' :: withSlashes r))).isSome = true ∨
          ∃ d ∈ s.directories, ∃ rest, inner ++ '/' :: withSlashes r = d ++ '/' :: rest ∧
            (t.request.importer.resolve (String.ofList rest)).isSome = true) := by
  have hwhole : IsToken (dir.join (.ofChars r)) (withSlashes r) → (t.answer? s).isSome = true := by
    intro htoken
    exact (isSome_answer?_iff (hpath ▸ htoken)).2 (.inr (.inl (by rw [hfound]; rfl)))
  constructor
  · intro h
    by_cases hr : r.head? = some '/'
    · exact hwhole (isToken_of_head? dir hr hsource hno)
    · rcases isToken_of_not_shortenedTo (h.resolve_left hr) hdir hne hr hsource hno with
        htoken | htoken
      · exact hwhole htoken
      · have hmem : withSlashes dir.chars ∈ s.directories := mem_directories_iff.2
          ⟨withSlashes_ne_nil hne, p, hit, dir, hp, hdir, rfl⟩
        exact (isSome_answer?_iff (hpath ▸ htoken)).2
          (.inr (.inr ⟨_, hmem, _, rfl, by rw [hfound]; rfl⟩))
  · intro inner hshort hr
    exact isSome_answer?_iff (hpath ▸ isToken_of_shortenedTo hshort hdir hr hsource hno)

/-- `sub/a.scss` imports `b.scss`, which is at the top. -/
theorem isSome_answer?_join_sub :
    (∀ inner, ¬ ShortenedTo ⟨"sub"⟩ inner) ∧
      ((askShelf "sub/b.scss").answer? ((askShelf "sub/a.scss").take empty)).isSome = true := by
  have hkept : ∀ inner, ¬ ShortenedTo ⟨"sub"⟩ inner := by
    intro inner h
    cases h with
    | current h => cases h
    | root h => exact absurd h (by decide)
  have hfirst : (askShelf "sub/a.scss").answer? empty =
      some ⟨"theme/sub/a.scss", ⟨"src/sub/a.scss"⟩⟩ := by
    decide +kernel
  have hdir : (askShelf "sub/a.scss").path.parent? = some ⟨"sub"⟩ := by
    decide +kernel
  have hfound : (askShelf "sub/b.scss").request.importer.resolve
      (String.ofList (withSlashes "b.scss".toList)) = some ⟨"theme/b.scss", ⟨"src/b.scss"⟩⟩ := by
    decide +kernel
  obtain ⟨hanswer, -⟩ := isSome_answer?_join
    (resolved_take_empty hfirst ▸ List.mem_singleton_self _) hdir (by decide)
    (by decide +kernel) (by decide +kernel) hfound (by decide +kernel)
  exact ⟨hkept, hanswer (.inr hkept)⟩

/-- When the same file was asked for as `./sub/a.scss`, what it imports from the top is missed. -/
theorem nested_missed :
    (askShelf "./sub/a.scss").answer? empty = some ⟨"theme/sub/a.scss", ⟨"src/sub/a.scss"⟩⟩ ∧
      (askShelf "b.scss").answer? empty = some ⟨"theme/b.scss", ⟨"src/b.scss"⟩⟩ ∧
      (askShelf "./sub/b.scss").answer? ((askShelf "./sub/a.scss").take empty) = none := by
  have hfirst : (askShelf "./sub/a.scss").answer? empty =
      some ⟨"theme/sub/a.scss", ⟨"src/sub/a.scss"⟩⟩ := by
    decide +kernel
  refine ⟨hfirst, by decide +kernel, ?_⟩
  have hdir : (askShelf "./sub/a.scss").path.parent? = some ⟨"./sub"⟩ := by
    decide +kernel
  have hdirectories : ((askShelf "./sub/a.scss").take empty).directories = ["./sub".toList] :=
    directories_of_singleton (resolved_take_empty hfirst) hdir (by decide)
  rw [answer?_of_known?_eq_none (by decide +kernel), find_eq, tokensFor, hdirectories]
  decide +kernel

end ImportFiles

end StyleBuild
