import Mathlib.Data.Set.Basic
import StyleBuild.Proofs.Engine.Turns

/-!
# What a path is answered with

A path that is found for the first time stands for a token, and the token is
looked up as it is; only when that finds nothing, it is looked up without the
directory of a path that was found before, the longest such directory first
(`foundAs_of_find`). Every later question about the path, in any spelling, has
the answer of that first time (`answer_kept_from_first`), and the file that is
read is the one of that answer.
-/

namespace StyleBuild

open Text

namespace ImportFiles

/-- The token of a path: its text with slashes for backslashes, without one `./` in front. It has
the extension of sources, and not that of files made for imports alone. -/
structure IsToken (p : Path) (token : List Char) : Prop where
  text : withSlashes p.chars = "./".toList ++ token ∨
    (¬ "./".toList <+: withSlashes p.chars ∧ withSlashes p.chars = token)
  source : ".scss".toList <:+ token
  no_import : ¬ ".import.scss".toList <:+ token

/-- What a token is found as: itself, or, when that finds nothing, what is left of it below one of
the directories. No longer directory has anything below it that is found. -/
inductive FoundAs (resolve : String → Option ResolvedImport) (directories : Set (List Char))
    (token : List Char) (hit : ResolvedImport) : Prop where
  | whole (h : resolve (String.ofList token) = some hit)
  | below (hnone : resolve (String.ofList token) = none) (dir rest : List Char)
      (hdir : dir ∈ directories) (htoken : token = dir ++ '/' :: rest)
      (hrest : resolve (String.ofList rest) = some hit)
      (hlongest : ∀ dir' ∈ directories, ∀ rest', dir.length < dir'.length →
        token = dir' ++ '/' :: rest' → resolve (String.ofList rest') = none)

/-- The directories of the paths that were found, with slashes, as each path was spelled when it was
found for the first time. -/
def foundDirectories (turns : List Turn) : Set (List Char) :=
  {dir | dir ≠ [] ∧ ∃ front t back hit parent, turns = front ++ t :: back ∧
    (∀ hit', ¬ Answered front t.path hit') ∧ t.answer? (empty.after front) = some hit ∧
    t.path.parent? = some parent ∧ dir = withSlashes parent.chars}

theorem token?_eq_some_iff {p : Path} {token : String} :
    token? p = some token ↔ IsToken p token.toList := by
  have htext : ∀ s : List Char, (afterStart? "./".toList s).getD s = token.toList ↔
      (s = "./".toList ++ token.toList ∨ (¬ "./".toList <+: s ∧ s = token.toList)) := by
    intro s
    cases hafter : afterStart? "./".toList s with
    | some rest =>
        have hs := (afterStart?_eq_some_iff _ _ _).1 hafter
        simp [hs]
    | none =>
        have hstart : ¬ "./".toList <+: s := by
          rintro ⟨rest, hrest⟩
          rw [(afterStart?_eq_some_iff _ _ rest).2 hrest.symm] at hafter
          cases hafter
        refine ⟨fun h => Or.inr ⟨hstart, h⟩, ?_⟩
        rintro (h | ⟨-, h⟩)
        · exact absurd (h ▸ List.prefix_append _ _) hstart
        · exact h
  have hends : ∀ s : List Char,
      (endsWith sourceExtension.toList s && !endsWith ".import.scss".toList s) = true ↔
        ".scss".toList <:+ s ∧ ¬ ".import.scss".toList <:+ s := by
    intro s
    rw [Bool.and_eq_true, Bool.not_eq_true', Bool.eq_false_iff, Ne, endsWith_iff_suffix,
      endsWith_iff_suffix, sourceExtension]
  unfold token?
  simp only
  constructor
  · intro h
    split at h
    · next hsource =>
      obtain ⟨hscss, hno⟩ := (hends _).1 hsource
      have htoken := congrArg String.toList (Option.some.inj h)
      rw [String.toList_ofList] at htoken
      rw [htoken] at hscss hno
      exact ⟨(htext _).1 htoken, hscss, hno⟩
    · cases h
  · rintro ⟨htoken, hsource, hno⟩
    have heq := (htext _).2 htoken
    rw [heq, if_pos ((hends _).2 ⟨hsource, hno⟩), String.ofList_toList]

theorem IsToken.unique {p : Path} {token token' : List Char} (h : IsToken p token)
    (h' : IsToken p token') : token = token' := by
  rw [← String.toList_ofList (l := token), ← token?_eq_some_iff] at h
  rw [← String.toList_ofList (l := token'), ← token?_eq_some_iff, h] at h'
  exact String.ofList_injective (Option.some.inj h')

theorem byteLength_append (a b : List Char) :
    byteLength (a ++ b) = byteLength a + byteLength b := by
  rw [byteLength, String.ofList_append, String.utf8ByteSize_append]
  rfl

theorem byteLength_eq_zero_iff {a : List Char} : byteLength a = 0 ↔ a = [] := by
  rw [byteLength, String.utf8ByteSize_eq_zero_iff, ← String.toList_inj]
  simp

/-- The longer one of two beginnings of a text takes more bytes. -/
theorem byteLength_lt_of_prefix {a b s : List Char} (ha : a <+: s) (hb : b <+: s)
    (h : a.length < b.length) : byteLength a < byteLength b := by
  obtain ⟨t, rfl⟩ := List.prefix_of_prefix_length_le ha hb (Nat.le_of_lt h)
  have hne : t ≠ [] := by
    rintro rfl
    simp at h
  have hpos := Nat.pos_of_ne_zero fun hz => hne (byteLength_eq_zero_iff.1 hz)
  rw [byteLength_append]
  omega

theorem comesBefore_trans (a b c : List Char) (hab : comesBefore a b = true)
    (hbc : comesBefore b c = true) : comesBefore a c = true := by
  simp only [comesBefore, Bool.or_eq_true, Bool.and_eq_true, beq_iff_eq, decide_eq_true_eq] at *
  rcases hab with hab | ⟨hab, hab'⟩ <;> rcases hbc with hbc | ⟨hbc, hbc'⟩
  · exact Or.inl (by omega)
  · exact Or.inl (by omega)
  · exact Or.inl (by omega)
  · exact Or.inr ⟨hab.trans hbc, String.le_trans hab' hbc'⟩

theorem comesBefore_total (a b : List Char) : (comesBefore a b || comesBefore b a) = true := by
  simp only [comesBefore, Bool.or_eq_true, Bool.and_eq_true, beq_iff_eq, decide_eq_true_eq]
  rcases Nat.lt_trichotomy (byteLength a) (byteLength b) with h | h | h
  · exact Or.inr (Or.inl h)
  · rcases String.le_total (String.ofList a) (String.ofList b) with hle | hle
    · exact Or.inl (Or.inr ⟨h, hle⟩)
    · exact Or.inr (Or.inr ⟨h.symm, hle⟩)
  · exact Or.inl (Or.inl h)

/-- No directory is longer than one before it. -/
theorem pairwise_directories (s : ImportFiles) :
    s.directories.Pairwise fun a b => byteLength b ≤ byteLength a := by
  refine (List.pairwise_mergeSort comesBefore_trans comesBefore_total _).imp fun {a b} h => ?_
  simp only [comesBefore, Bool.or_eq_true, Bool.and_eq_true, beq_iff_eq, decide_eq_true_eq] at h
  omega

theorem mem_directories_iff {s : ImportFiles} {dir : List Char} :
    dir ∈ s.directories ↔ dir ≠ [] ∧ ∃ p hit parent, (p, hit) ∈ s.resolved ∧
      p.parent? = some parent ∧ dir = withSlashes parent.chars := by
  simp only [directories, List.mem_mergeSort, List.mem_eraseDups, List.mem_filter,
    List.mem_filterMap, Option.map_eq_some_iff, Bool.not_eq_true', List.isEmpty_eq_false_iff, ne_eq]
  constructor
  · rintro ⟨⟨⟨p, hit⟩, he, parent, hparent, rfl⟩, hne⟩
    exact ⟨hne, p, hit, parent, he, hparent, rfl⟩
  · rintro ⟨hne, p, hit, parent, he, hparent, rfl⟩
    exact ⟨⟨⟨p, hit⟩, he, parent, hparent, rfl⟩, hne⟩

theorem resolved_take_empty {t : Turn} {hit : ResolvedImport} (h : t.answer? empty = some hit) :
    (t.take empty).resolved = [(t.path, hit)] := by
  rw [resolved_take, h]
  rfl

theorem withSlashes_ne_nil {a : List Char} (h : a ≠ []) : withSlashes a ≠ [] :=
  mt List.map_eq_nil_iff.1 h

/-- One path that was found brings its directory. -/
theorem directories_of_singleton {s : ImportFiles} {p parent : Path} {hit : ResolvedImport}
    (h : s.resolved = [(p, hit)]) (hparent : p.parent? = some parent) (hne : parent.chars ≠ []) :
    s.directories = [withSlashes parent.chars] := by
  have hkept : (!(withSlashes parent.chars).isEmpty) = true := by
    rw [Bool.not_eq_true', List.isEmpty_eq_false_iff]
    exact withSlashes_ne_nil hne
  simp [directories, h, hparent, hkept, List.eraseDups_cons]

theorem setOf_mem_directories (turns : List Turn) :
    {dir | dir ∈ (empty.after turns).directories} = foundDirectories turns := by
  ext dir
  rw [Set.mem_ofPred_eq, mem_directories_iff]
  refine and_congr Iff.rfl ?_
  simp only [mem_resolved_after_iff]
  constructor
  · rintro ⟨p, hit, parent, ⟨front, t, back, hturns, rfl, hfirst⟩, hparent⟩
    exact ⟨front, t, back, hit, parent, hturns, hfirst.1, hfirst.2, hparent⟩
  · rintro ⟨front, t, back, hit, parent, hturns, hnone, hanswer, hparent⟩
    exact ⟨t.path, hit, parent, ⟨front, t, back, hturns, rfl, hnone, hanswer⟩, hparent⟩

theorem afterStart?_directory_iff {dir s rest : List Char} :
    afterStart? (dir ++ ['/']) s = some rest ↔ s = dir ++ '/' :: rest := by
  rw [afterStart?_eq_some_iff, List.append_assoc]
  rfl

/-- Of the directories below which something is found, the longest one decides. -/
theorem resolveFromRoot_eq_some {resolve : String → Option ResolvedImport} {s : ImportFiles}
    {token : String} {hit : ResolvedImport} (h : s.resolveFromRoot resolve token = some hit) :
    ∃ dir ∈ s.directories, ∃ rest, token.toList = dir ++ '/' :: rest ∧
      resolve (String.ofList rest) = some hit ∧
      ∀ dir' ∈ s.directories, ∀ rest', dir.length < dir'.length →
        token.toList = dir' ++ '/' :: rest' → resolve (String.ofList rest') = none := by
  have hpairwise := pairwise_directories s
  obtain ⟨before, dir, behind, hdirs, hfound, hbefore⟩ := List.findSome?_eq_some_iff.1 h
  rw [hdirs] at hpairwise ⊢
  split at hfound
  · next rest hrest =>
    have htoken := afterStart?_directory_iff.1 hrest
    refine ⟨dir, by simp, rest, htoken, hfound, fun dir' hdir' rest' hlonger htoken' => ?_⟩
    have hbytes : byteLength dir < byteLength dir' :=
      byteLength_lt_of_prefix (htoken ▸ List.prefix_append _ _) (htoken' ▸ List.prefix_append _ _)
        hlonger
    rcases List.mem_append.1 hdir' with hmem | hmem
    · have hmissed := hbefore dir' hmem
      rw [afterStart?_directory_iff.2 htoken'] at hmissed
      exact hmissed
    · -- from `dir` on none is longer
      have hle : byteLength dir' ≤ byteLength dir := by
        rcases List.mem_cons.1 hmem with rfl | hmem
        · exact Nat.le_refl _
        · exact (List.pairwise_cons.1 (List.pairwise_append.1 hpairwise).2.1).1 dir' hmem
      omega
  · cases hfound

/-- What a path that was not found before is found as. -/
theorem foundAs_of_find {resolve : String → Option ResolvedImport} {s : ImportFiles} {p : Path}
    {hit : ResolvedImport} (h : s.find resolve p = some hit) :
    ∃ token, IsToken p token ∧ FoundAs resolve {dir | dir ∈ s.directories} token hit := by
  unfold find at h
  split at h
  · cases h
  · next token htoken =>
    refine ⟨token.toList, token?_eq_some_iff.1 htoken, ?_⟩
    split at h
    · next hit' hwhole =>
      cases h
      exact .whole (by rw [String.ofList_toList, hwhole])
    · next hnone =>
      obtain ⟨dir, hdir, rest, hrest, hfound, hlongest⟩ := resolveFromRoot_eq_some h
      exact .below (by rw [String.ofList_toList, hnone]) dir rest hdir hrest hfound hlongest

/-- A token is found as one import only: two directories of one length that it lies below are the
same. -/
theorem FoundAs.unique {resolve : String → Option ResolvedImport} {directories : Set (List Char)}
    {token : List Char} {hit hit' : ResolvedImport} (h : FoundAs resolve directories token hit)
    (h' : FoundAs resolve directories token hit') : hit = hit' := by
  cases h with
  | whole h =>
      cases h' with
      | whole h' => exact Option.some.inj (h.symm.trans h')
      | below hnone =>
          rw [hnone] at h
          cases h
  | below hnone dir rest hdir htoken hrest hlongest =>
      cases h' with
      | whole h' =>
          rw [hnone] at h'
          cases h'
      | below _ dir' rest' hdir' htoken' hrest' hlongest' =>
          rcases Nat.lt_trichotomy dir.length dir'.length with hlt | heq | hlt
          · rw [hlongest dir' hdir' rest' hlt htoken'] at hrest'
            cases hrest'
          · obtain ⟨-, hrests⟩ := List.append_inj (htoken.symm.trans htoken') heq
            obtain rfl := (List.cons.inj hrests).2
            exact Option.some.inj (hrest.symm.trans hrest')
          · rw [hlongest' dir hdir rest hlt htoken] at hrest
            cases hrest

/-- The tokens that a path may stand for are its token and what is left of it below a directory. -/
theorem mem_tokensFor_iff {s : ImportFiles} {p : Path} {x : String} :
    x ∈ s.tokensFor p ↔ ∃ token, IsToken p token ∧ (x = String.ofList token ∨
      ∃ dir ∈ s.directories, ∃ rest, token = dir ++ '/' :: rest ∧ x = String.ofList rest) := by
  unfold tokensFor
  cases htoken : token? p with
  | none =>
      refine iff_of_false List.not_mem_nil ?_
      rintro ⟨token, h, -⟩
      rw [← String.toList_ofList (l := token), ← token?_eq_some_iff, htoken] at h
      cases h
  | some token =>
      have hiff := token?_eq_some_iff.1 htoken
      simp only [List.mem_cons, List.mem_filterMap, Option.map_eq_some_iff,
        afterStart?_directory_iff]
      constructor
      · rintro (rfl | ⟨dir, hdir, rest, htext, rfl⟩)
        · exact ⟨x.toList, hiff, .inl String.ofList_toList.symm⟩
        · exact ⟨token.toList, hiff, .inr ⟨dir, hdir, rest, htext, rfl⟩⟩
      · rintro ⟨token', h, hx⟩
        obtain rfl := h.unique hiff
        rcases hx with rfl | ⟨dir, hdir, rest, htext, rfl⟩
        · exact .inl String.ofList_toList
        · exact .inr ⟨dir, hdir, rest, htext, rfl⟩

/-- A path is found when its token or what is left of it below one of the directories is. -/
theorem isSome_find_iff {resolve : String → Option ResolvedImport} {s : ImportFiles} {p : Path} :
    (s.find resolve p).isSome = true ↔ ∃ token, IsToken p token ∧
      ((resolve (String.ofList token)).isSome = true ∨
        ∃ dir ∈ s.directories, ∃ rest, token = dir ++ '/' :: rest ∧
          (resolve (String.ofList rest)).isSome = true) := by
  rw [find_eq, List.findSome?_isSome_iff]
  constructor
  · rintro ⟨x, hx, hsome⟩
    obtain ⟨token, htoken, rfl | ⟨dir, hdir, rest, htext, rfl⟩⟩ := mem_tokensFor_iff.1 hx
    · exact ⟨token, htoken, .inl hsome⟩
    · exact ⟨token, htoken, .inr ⟨dir, hdir, rest, htext, hsome⟩⟩
  · rintro ⟨token, htoken, hsome | ⟨dir, hdir, rest, htext, hsome⟩⟩
    · exact ⟨_, mem_tokensFor_iff.2 ⟨token, htoken, .inl rfl⟩, hsome⟩
    · exact ⟨_, mem_tokensFor_iff.2 ⟨token, htoken, .inr ⟨dir, hdir, rest, htext, rfl⟩⟩, hsome⟩

/-- What a path that was not found before is found as, and nothing else. -/
theorem find_eq_some_iff {resolve : String → Option ResolvedImport} {s : ImportFiles} {p : Path}
    {hit : ResolvedImport} : s.find resolve p = some hit ↔
      ∃ token, IsToken p token ∧ FoundAs resolve {dir | dir ∈ s.directories} token hit := by
  refine ⟨foundAs_of_find, ?_⟩
  rintro ⟨token, htoken, hfound⟩
  have hsome : (s.find resolve p).isSome = true := by
    refine isSome_find_iff.2 ⟨token, htoken, ?_⟩
    cases hfound with
    | whole h => exact .inl (by rw [h]; rfl)
    | below _ dir rest hdir hrest hhit => exact .inr ⟨dir, hdir, rest, hrest, by rw [hhit]; rfl⟩
  obtain ⟨hit', hhit'⟩ := Option.isSome_iff_exists.1 hsome
  obtain ⟨token', htoken', hfound'⟩ := foundAs_of_find hhit'
  obtain rfl := htoken.unique htoken'
  rw [hhit', hfound.unique hfound']

/-- A path that was answered keeps its answer. Whatever is asked afterwards, and whatever the
importer would answer now, a path with the same components is answered with that import, and its
text is made of that import's file. The answer was given when a path with these components was found
for the first time, which then stood for a token with the extension of sources: it is what the
importer answered at that time for the token or, when it had no answer, for what is left of the
token below the longest directory of a path found before for which it had one. -/
theorem answer_kept_from_first {turns : List Turn} {t : Turn} {hit : ResolvedImport}
    (h : t.answer? (empty.after turns) = some hit) :
    (∀ (later : List Turn) (u : Turn), u.path.components = t.path.components →
      u.answer? (empty.after (turns ++ t :: later)) = some hit ∧
        (empty.after (turns ++ t :: later)).read u.request u.path =
          (empty.after (turns ++ t :: later)).taken hit (load u.request hit)) ∧
      ∃ front first back, turns ++ [t] = front ++ first :: back ∧
        first.path.components = t.path.components ∧ (∀ hit', ¬ Answered front t.path hit') ∧
        first.answer? (empty.after front) = some hit ∧
        ∃ token, IsToken first.path token ∧
          FoundAs first.request.importer.resolve (foundDirectories front) token hit := by
  have hknown : (empty.after (turns ++ [t])).known? t.path = some hit :=
    known?_after_iff.2 ⟨turns, t, [], rfl, rfl, h⟩
  constructor
  · intro later u hsame
    have hkept : (empty.after (turns ++ t :: later)).known? u.path = some hit := by
      rw [known?_congr _ hsame, List.append_cons, after_append]
      exact known?_after hknown later
    exact ⟨answer?_of_known? hkept, read_of_known? hkept u.request⟩
  · obtain ⟨front, first, back, hturns, hsame, hnone, hanswer⟩ := exists_first hknown
    have hfind := hanswer
    rw [answer?_of_known?_eq_none (by rw [known?_congr _ hsame, hnone])] at hfind
    obtain ⟨token, htoken, hfound⟩ := foundAs_of_find hfind
    rw [setOf_mem_directories] at hfound
    exact ⟨front, first, back, hturns, hsame, known?_after_eq_none_iff.1 hnone, hanswer, token,
      htoken, hfound⟩

/-- A request that is answered from a shelf of sources, each with its own path as content. -/
def shelf (tokens : List String) : CompileRequest where
  source := ""
  formatter := OutputFormat.crunched.formatter
  importer :=
    { resolve := fun token =>
        if token ∈ tokens then some ⟨"theme/" ++ token, ⟨"src/" ++ token⟩⟩ else none
      read := fun p => .ok p.text.toUTF8 }
  functions := .empty

/-- Asks for a file when `sub/a.scss` and `b.scss` are there. -/
def askShelf (path : String) : Turn := ⟨shelf ["sub/a.scss", "b.scss"], .isFile, ⟨path⟩⟩

/-- Two sources are found, the second one in a directory below that of the first. -/
def shelfTurns : List Turn :=
  [⟨shelf ["a/x.scss"], .text, ⟨"a/x.scss"⟩⟩, ⟨shelf ["a/b/y.scss"], .isFile, ⟨"a/b/y.scss"⟩⟩]

theorem mergeSort_swap {α : Type} {le : α → α → Bool} {a b : α} (h : le a b = false) :
    [a, b].mergeSort le = [b, a] := by
  simp [List.mergeSort, List.MergeSort.Internal.splitInTwo, h]

/-- The directory of the second source comes first. -/
theorem directories_shelf :
    (empty.after shelfTurns).directories = ["a/b".toList, "a".toList] := by
  have hfound : (((empty.after shelfTurns).resolved.filterMap fun e =>
      e.1.parent?.map fun d => withSlashes d.chars).filter fun d => !d.isEmpty).eraseDups =
        ["a".toList, "a/b".toList] := by
    decide +kernel
  rw [directories, hfound, mergeSort_swap (by decide +kernel)]

/-- Of the two directories `a/b` and `a` the first one is left out; the answer stays when the shelf
is empty and the path is spelled otherwise. -/
theorem answer_kept_from_first_shelf :
    (Turn.mk (shelf ["b/c.scss", "c.scss"]) .isFile ⟨"a/b/c.scss"⟩).answer?
        (empty.after shelfTurns) = some ⟨"theme/c.scss", ⟨"src/c.scss"⟩⟩ ∧
      (Turn.mk (shelf []) .text ⟨"a//b/./c.scss"⟩).answer? (empty.after (shelfTurns ++
        [⟨shelf ["b/c.scss", "c.scss"], .isFile, ⟨"a/b/c.scss"⟩⟩])) =
          some ⟨"theme/c.scss", ⟨"src/c.scss"⟩⟩ := by
  have hanswer : (Turn.mk (shelf ["b/c.scss", "c.scss"]) .isFile ⟨"a/b/c.scss"⟩).answer?
      (empty.after shelfTurns) = some ⟨"theme/c.scss", ⟨"src/c.scss"⟩⟩ := by
    have htoken : token? ⟨"a/b/c.scss"⟩ = some "a/b/c.scss" := by
      decide +kernel
    rw [answer?_of_known?_eq_none (by decide +kernel), find]
    simp only [htoken]
    rw [resolveFromRoot, directories_shelf]
    decide +kernel
  obtain ⟨hkept, -⟩ := answer_kept_from_first hanswer
  exact ⟨hanswer, (hkept [] ⟨shelf [], .text, ⟨"a//b/./c.scss"⟩⟩ (by decide +kernel)).1⟩

/-- A spelling that stands for no token is answered when the path was found in another one. -/
theorem answered_without_token :
    (Turn.mk (shelf ["a.scss"]) .isFile ⟨"a.scss/"⟩).answer?
        (empty.after [⟨shelf ["a.scss"], .isFile, ⟨"a.scss"⟩⟩]) =
          some ⟨"theme/a.scss", ⟨"src/a.scss"⟩⟩ ∧
      ¬ ∃ token, IsToken ⟨"a.scss/"⟩ token := by
  refine ⟨by decide +kernel, ?_⟩
  rintro ⟨token, htoken⟩
  have hnone : token? ⟨"a.scss/"⟩ = none := by decide +kernel
  rw [← String.toList_ofList (l := token), ← token?_eq_some_iff, hnone] at htoken
  cases htoken

end ImportFiles

end StyleBuild
