import Mathlib.Data.List.DropRight
import StyleBuild.Proofs.Files.Replacement
import StyleBuild.Proofs.Files.Tree

/-!
# The directories that are made

The parent of a path takes all its steps but the last one (`steps_parent?`), so
the directories that are made for a path lie on the way to it:
`createDirectories` makes directories above the place of the path and there
(`newDirectoriesIn_createDirectories`). No other change makes any.
-/

namespace StyleBuild

namespace Text

theorem segments_joined {sep : Char} {ls : List (List Char)} (hls : ls ≠ [])
    (h : ∀ l ∈ ls, sep ∉ l) : segments sep (joined sep ls) = ls := by
  induction ls with
  | nil => exact absurd rfl hls
  | cons l ls ih =>
      have hl := segments_of_notMem (h l List.mem_cons_self)
      cases ls with
      | nil => exact hl
      | cons l' ls =>
          rw [joined, segments_append_sep, hl, ih (by simp) fun m hm => h m (by simp [hm])]
          rfl

theorem joined_isPrefix {sep : Char} {a b : List (List Char)} (h : a <+: b) :
    joined sep a <+: joined sep b := by
  induction a generalizing b with
  | nil => exact List.nil_prefix
  | cons l a ih =>
      obtain ⟨c, rfl⟩ := h
      cases a with
      | nil =>
          cases c with
          | nil => exact List.prefix_refl _
          | cons m c => exact List.prefix_append _ _
      | cons l' a =>
          have htail : joined sep (l' :: a) <+: joined sep (l' :: a ++ c) :=
            ih (List.prefix_append _ _)
          exact (List.prefix_append_right_inj l).2 ((List.prefix_cons_inj sep).2 htail)

end Text

namespace Path

open Text

/-- Segments without a step can be left out at the end. -/
theorem filter_rdropWhile {drop : List Char → Bool} (hdrop : ∀ s, drop s = true → isSilent s = true)
    (segs : List (List Char)) :
    ((segs.rdropWhile drop).filter fun s => !isSilent s) = segs.filter fun s => !isSilent s := by
  induction segs using List.reverseRecOn with
  | nil => rfl
  | append_singleton segs s ih =>
      rw [List.rdropWhile_concat]
      split
      · next hs =>
        rw [ih, List.filter_append, List.filter_cons_of_neg (by simp [hdrop s hs]), List.filter_nil,
          List.append_nil]
      · rfl

theorem filter_trimSilent (segs : List (List Char)) :
    ((trimSilent segs).filter fun s => !isSilent s) = segs.filter fun s => !isSilent s :=
  filter_rdropWhile (fun _ hs => hs) segs

theorem trimSilent_isPrefix (segs : List (List Char)) : trimSilent segs <+: segs :=
  List.rdropWhile_prefix isSilent segs

theorem isSilent_of_trimSilent_eq {segs init : List (List Char)} {s : List Char}
    (h : trimSilent segs = init ++ [s]) : isSilent s = false := by
  have hrdrop : segs.rdropWhile isSilent = init ++ [s] := h
  have hlast := List.rdropWhile_last_not isSilent segs (by rw [hrdrop]; simp)
  simpa [hrdrop] using hlast

theorem append_joined_leadAndSegments (s : List Char) :
    (leadAndSegments s).1 ++ joined '/' (leadAndSegments s).2 = s := by
  unfold leadAndSegments
  split
  · exact congrArg _ (joined_segments _ _)
  · rfl
  · next rest =>
    obtain ⟨l, ls, hls⟩ := List.exists_cons_of_ne_nil (segments_ne_nil '/' rest)
    rw [hls, joined, ← hls, joined_segments]
    rfl
  · exact joined_segments _ _

theorem notMem_of_mem_leadAndSegments {s l : List Char} (h : l ∈ (leadAndSegments s).2) :
    '/' ∉ l := by
  unfold leadAndSegments at h
  split at h
  · exact notMem_of_mem_segments _ _ l h
  · rw [List.mem_singleton.1 h]
    exact List.not_mem_nil
  · rcases List.mem_cons.1 h with rfl | h
    · exact List.not_mem_nil
    · exact notMem_of_mem_segments _ _ l h
  · exact notMem_of_mem_segments _ _ l h

theorem leadAndSegments_cases (s : List Char) :
    ((leadAndSegments s).1 = [] ∧ s.head? ≠ some '/') ∨ (leadAndSegments s).1 = ['/'] ∨
      ((leadAndSegments s).1 = ['.'] ∧ ∃ rest, (leadAndSegments s).2 = [] :: rest) := by
  unfold leadAndSegments
  split
  · exact Or.inr (Or.inl rfl)
  · exact Or.inr (Or.inr ⟨rfl, _, rfl⟩)
  · exact Or.inr (Or.inr ⟨rfl, _, rfl⟩)
  · next hslash _ _ =>
    refine Or.inl ⟨rfl, fun h => ?_⟩
    obtain ⟨rest, rfl⟩ := List.head?_eq_some_iff.1 h
    exact hslash rest rfl

theorem steps_ofChars_joined {segs : List (List Char)} (h : ∀ s ∈ segs, '/' ∉ s) :
    (ofChars (joined '/' segs)).steps = segs.filter fun s => !isSilent s := by
  rw [steps, chars_ofChars]
  rcases eq_or_ne segs [] with rfl | hne
  · rfl
  · rw [segments_joined hne h]

/-- What leads a path takes no step, whatever segments follow. -/
theorem steps_lead_joined {s : List Char} {segs : List (List Char)}
    (h : segs <+: (leadAndSegments s).2) :
    (ofChars ((leadAndSegments s).1 ++ joined '/' segs)).steps =
      segs.filter fun s => !isSilent s := by
  have hsep : ∀ l ∈ segs, '/' ∉ l := fun l hl => notMem_of_mem_leadAndSegments (h.subset hl)
  rcases leadAndSegments_cases s with ⟨hlead, -⟩ | hlead | ⟨hlead, rest, hrest⟩
  · rw [hlead]
    exact steps_ofChars_joined hsep
  · rw [hlead, ← steps_ofChars_joined hsep]
    exact steps_append_sep [] _
  · rw [hlead]
    cases segs with
    | nil => rfl
    | cons l segs =>
        rw [hrest, List.cons_prefix_cons] at h
        obtain ⟨rfl, -⟩ := h
        cases segs with
        | nil => rfl
        | cons l segs =>
            rw [List.filter_cons_of_neg (by simp [isSilent]),
              ← steps_ofChars_joined fun m hm => hsep m (List.mem_cons_of_mem _ hm)]
            exact steps_append_sep ['.'] _

/-- The text of a parent is what leads the path and the segments up to the last step but one. -/
theorem eq_of_parent? {p q : Path} (h : p.parent? = some q) :
    ((leadAndSegments p.chars).1 = ['.'] ∧ trimSilent (leadAndSegments p.chars).2 = [] ∧
        q = empty) ∨
      ∃ init s, trimSilent (leadAndSegments p.chars).2 = init ++ [s] ∧
        q = ofChars ((leadAndSegments p.chars).1 ++ joined '/' (trimSilent init)) := by
  unfold parent? at h
  simp only at h
  rcases List.eq_nil_or_concat' (trimSilent (leadAndSegments p.chars).2) with
    hnil | ⟨init, s, hinit⟩
  · rw [hnil] at h
    simp only at h
    split at h
    · next hlead =>
      cases h
      exact Or.inl ⟨hlead, hnil, rfl⟩
    · cases h
  · rw [hinit] at h
    split at h
    · next hnil => simp at hnil
    · rw [List.dropLast_concat] at h
      exact Or.inr ⟨init, s, hinit, (Option.some.inj h).symm⟩

/-- The parent takes all steps but the last one. -/
theorem steps_parent? {p q : Path} (h : p.parent? = some q) :
    q.steps = p.steps.dropLast ∧ q.isAbsolute = p.isAbsolute := by
  have hsteps := filter_leadAndSegments p.chars
  have hchars := append_joined_leadAndSegments p.chars
  rw [← filter_trimSilent] at hsteps
  rcases eq_of_parent? h with ⟨hlead, hnil, rfl⟩ | ⟨init, s, hinit, hq⟩
  · rw [hnil] at hsteps
    have hpsteps : p.steps = [] := hsteps.symm
    rw [hpsteps, isAbsolute_eq p, ← hchars, hlead]
    exact ⟨rfl, rfl⟩
  · have hprefix : trimSilent init <+: (leadAndSegments p.chars).2 :=
      (trimSilent_isPrefix init).trans
        (((List.prefix_append init [s]).trans (hinit ▸ List.prefix_refl _)).trans
          (trimSilent_isPrefix _))
    constructor
    · rw [hq, steps_lead_joined hprefix, filter_trimSilent]
      rw [hinit, List.filter_append,
        List.filter_cons_of_pos (by simp [isSilent_of_trimSilent_eq hinit])] at hsteps
      have hpsteps : p.steps = (init.filter fun s => !isSilent s) ++ [s] := hsteps.symm
      rw [hpsteps, List.dropLast_concat]
    · -- the text of the parent is a beginning of the path's text
      have hqchars : q.chars = (leadAndSegments p.chars).1 ++ joined '/' (trimSilent init) := by
        rw [hq, chars_ofChars]
      have htext := (List.prefix_append_right_inj (leadAndSegments p.chars).1).2
        (joined_isPrefix hprefix : joined '/' _ <+: joined '/' _)
      rw [hchars, ← hqchars] at htext
      obtain ⟨t, ht⟩ := htext
      rw [isAbsolute_eq, isAbsolute_eq]
      cases hempty : q.chars with
      | cons c rest =>
          rw [← ht, hempty]
          rfl
      | nil =>
          rw [hempty] at hqchars
          have hlead := (List.append_eq_nil_iff.1 hqchars.symm).1
          rcases leadAndSegments_cases p.chars with ⟨-, hhead⟩ | h | ⟨h, -⟩
          · simp [hhead]
          · rw [hlead] at h
            cases h
          · rw [hlead] at h
            cases h

theorem origin_parent? {p q : Path} (h : p.parent? = some q) (home : Location) :
    q.origin home = p.origin home := by
  rw [origin, origin, (steps_parent? h).2]

theorem directory_eq_of_parent? {p q : Path} (h : p.parent? = some q) : p.directory = q := by
  rw [directory, h]
  rfl

theorem IsDown.parent? {p q : Path} (hp : p.IsDown) (h : p.parent? = some q) : q.IsDown := by
  rw [isDown_iff, (steps_parent? h).1]
  exact fun hmem => (isDown_iff p).1 hp (List.dropLast_subset _ hmem)

theorem IsDown.place_parent? {p q : Path} (hp : p.IsDown) (h : p.parent? = some q)
    (home : Location) : q.place home = p.origin home ++ p.steps.dropLast := by
  rw [(hp.parent? h).place_eq, (steps_parent? h).1, origin_parent? h]

/-- The locations on the way to the last segment of a path. -/
def ancestors (home : Location) (p : Path) : Set Location := {l | l <+: p.directoryPlace home}

theorem place_notMem_ancestors {p : Path} (hp : p.IsNamed) (home : Location) :
    p.place home ∉ p.ancestors home := by
  intro h
  have hlength := List.IsPrefix.length_le h
  rw [place_eq_of_isNamed home hp, List.length_append, List.length_singleton] at hlength
  omega

end Path

namespace Files

open Text StyleBuild.Path

/-- Directories that are new lie in `s`. -/
def NewDirectoriesIn (s : Set Location) (f g : Files) : Prop :=
  ∀ l, g.IsDirectoryAt l → f.IsDirectoryAt l ∨ l ∈ s

variable {f g h : Files} {s t : Set Location} {now : Int} {l : Location} {p : Path}

namespace NewDirectoriesIn

@[refl] theorem refl (s : Set Location) (f : Files) : NewDirectoriesIn s f f := fun _ h => Or.inl h

theorem mono (hst : s ⊆ t) (hfg : NewDirectoriesIn s f g) : NewDirectoriesIn t f g :=
  fun l hl => (hfg l hl).imp_right fun hs => hst hs

theorem of_empty (hfg : NewDirectoriesIn ∅ f g) (s : Set Location) : NewDirectoriesIn s f g :=
  hfg.mono (Set.empty_subset s)

theorem trans (hfg : NewDirectoriesIn s f g) (hgh : NewDirectoriesIn s g h) :
    NewDirectoriesIn s f h := by
  intro l hl
  rcases hgh l hl with hl | hl
  · exact hfg l hl
  · exact Or.inr hl

theorem trans_union (hfg : NewDirectoriesIn s f g) (hgh : NewDirectoriesIn t g h) :
    NewDirectoriesIn (s ∪ t) f h :=
  (hfg.mono Set.subset_union_left).trans (hgh.mono Set.subset_union_right)

end NewDirectoriesIn

theorem newDirectoriesIn_put_file (f : Files) (l : Location) (x : StoredFile) :
    NewDirectoriesIn ∅ f (f.put l (.file x)) := by
  rintro l' ⟨mode, modified, hd⟩
  rw [nodeAt?_put] at hd
  split at hd
  · cases hd
  · exact Or.inl ⟨mode, modified, hd⟩

theorem newDirectoriesIn_put (f : Files) (l : Location) (node : Node) :
    NewDirectoriesIn {l} f (f.put l node) := by
  rintro l' ⟨mode, modified, hd⟩
  rw [nodeAt?_put] at hd
  split at hd
  · next heq => exact Or.inr heq
  · exact Or.inl ⟨mode, modified, hd⟩

theorem newDirectoriesIn_drop (f : Files) (l : Location) : NewDirectoriesIn ∅ f (f.drop l) :=
  fun _ h => Or.inl (isDirectoryAt_of_drop h)

theorem newDirectoriesIn_touchDirectory (f : Files) (now : Int) (l : Location) :
    NewDirectoriesIn ∅ f (f.touchDirectory now l) :=
  fun _ h => Or.inl ((isDirectoryAt_touchDirectory_iff f now l _).1 h)

theorem newDirectoriesIn_addEntry_file (f : Files) (now : Int) (directory : Location)
    (name : List Char) (x : StoredFile) :
    NewDirectoriesIn ∅ f (f.addEntry now directory name (.file x)) :=
  (newDirectoriesIn_put_file f _ x).trans (newDirectoriesIn_touchDirectory _ now directory)

/-- The counter of ids is no directory. -/
theorem newDirectoriesIn_addFile (f : Files) (now : Int) (directory : Location) (name : List Char)
    (content : ByteArray) (mode : Nat) :
    NewDirectoriesIn ∅ f (f.addFile now directory name content mode) :=
  newDirectoriesIn_addEntry_file f now directory name _

theorem newDirectoriesIn_withdraw (f : Files) (now : Int) (directory : Location)
    (name : List Char) : NewDirectoriesIn ∅ f (f.withdraw now directory name) :=
  (newDirectoriesIn_drop f _).trans (newDirectoriesIn_touchDirectory _ now directory)

theorem newDirectoriesIn_moveOver {directory : Location} {name : List Char}
    (h : f.moveOver now directory name p = .ok g) : NewDirectoriesIn ∅ f g := by
  unfold moveOver at h
  split at h
  · next x hx =>
    split at h
    · cases h
    · cases h
    · next e he =>
      split at h
      · cases h
      · split at h
        · cases h
        · cases h
          exact (newDirectoriesIn_withdraw f now directory name).trans
            (newDirectoriesIn_addEntry_file _ now e.directory e.name x)
  · cases h

/-- Replacing a file makes no directory, whether it succeeds or not. -/
theorem newDirectoriesIn_replace (f : Files) (now : Int) (p : Path) (content : ByteArray) :
    NewDirectoriesIn ∅ f (f.replace now p content).1 := by
  rw [replace_eq]
  split
  · exact NewDirectoriesIn.refl ∅ f
  · next directory _ =>
    have hadd := newDirectoriesIn_addFile f now directory f.freshName content (f.modeFor p)
    split
    · next g hmove => exact hadd.trans (newDirectoriesIn_moveOver hmove)
    · exact hadd.trans (newDirectoriesIn_withdraw _ now directory f.freshName)

theorem newDirectoriesIn_openForWriting (h : f.openForWriting now p = .ok (g, l)) :
    NewDirectoriesIn ∅ f g := by
  unfold openForWriting at h
  split at h
  · cases h
  · cases h
  · next e he =>
    split at h
    · cases h
    · simp only at h
      split at h
      · cases h
      · cases h
        exact NewDirectoriesIn.refl ∅ f
      · cases h
        exact newDirectoriesIn_addFile f now e.directory e.name _ _

/-- The entry that a path names is its last step, in the directory to which the others lead. -/
theorem exists_of_target {e : Entry} (h : f.target p = .ok (.entry e)) :
    ∃ init, p.steps = (init.filter fun s => !isSilent s) ++ [e.name] ∧
      f.walk (p.origin f.home) init = .ok e.directory ∧ f.IsDirectoryAt e.directory ∧
      isSilent e.name = false ∧ e.name ≠ ['.', '.'] := by
  have hsteps : (((segments '/' p.chars).rdropWhile List.isEmpty).filter fun s => !isSilent s) =
      p.steps :=
    filter_rdropWhile (fun s hs => by rw [isSilent, hs, Bool.true_or]) _
  unfold target at h
  split at h
  · cases h
  · simp only at h
    split at h
    · cases h
    · next last hlast =>
      obtain ⟨init, hinit⟩ := List.getLast?_eq_some_iff.1 hlast
      rw [hinit, List.dropLast_concat] at h
      split at h
      · cases h
      · next directory hwalk =>
        split at h
        · cases h
        · cases h
        · next mode modified hnode =>
          split at h
          · cases h
          · next hname =>
            cases h
            have hrdrop : (segments '/' p.chars).rdropWhile List.isEmpty = init ++ [last] := hinit
            have hnonempty := List.rdropWhile_last_not List.isEmpty (segments '/' p.chars)
              (by rw [hrdrop]; simp)
            have hloud : isSilent last = false := by
              simp only [hrdrop, List.getLast_concat] at hnonempty
              simp [isSilent, hnonempty, not_or.1 hname]
            rw [hrdrop, List.filter_append, List.filter_cons_of_pos (by rw [hloud]; rfl),
              List.filter_nil] at hsteps
            exact ⟨init, hsteps.symm, hwalk, ⟨mode, modified, hnode⟩, hloud, (not_or.1 hname).2⟩

/-- An entry that a path names is at the place of the path. -/
theorem entry_eq_place {e : Entry} (h : f.target p = .ok (.entry e)) :
    e.directory ++ [e.name] = p.place f.home := by
  obtain ⟨init, hsteps, hwalk, -, hloud, hup⟩ := exists_of_target h
  rw [place_eq_lead_steps, hsteps, lead_append, lead_filter, ← walk_eq_lead hwalk, lead, hloud,
    if_neg (by simp), if_neg hup, lead]

theorem newDirectoriesIn_makeDirectory (h : f.makeDirectory now p = .ok g) :
    NewDirectoriesIn {p.place f.home} f g := by
  unfold makeDirectory at h
  split at h
  · cases h
  · cases h
  · next e he =>
    split at h
    · cases h
    · cases h
      rw [← entry_eq_place he]
      exact (newDirectoriesIn_put f _ _).trans
        ((newDirectoriesIn_touchDirectory _ now e.directory).of_empty _)

/-- The directories that are made for a path that is down are at its place and above it. -/
theorem newDirectoriesIn_createDirectoriesUpTo (f : Files) (now : Int) (fuel : Nat) {p : Path}
    (hp : p.IsDown) :
    NewDirectoriesIn {l | l <+: p.place f.home} f (f.createDirectoriesUpTo now fuel p).1 := by
  induction fuel generalizing p with
  | zero => exact NewDirectoriesIn.refl _ f
  | succ fuel ih =>
      have hmake : ∀ {g h : Files}, g.home = f.home → g.makeDirectory now p = .ok h →
          NewDirectoriesIn {l | l <+: p.place f.home} g h := by
        intro g h hhome hmake
        refine (newDirectoriesIn_makeDirectory hmake).mono fun l hl => ?_
        rw [Set.mem_singleton_iff.1 hl, hhome]
        exact List.prefix_refl _
      rw [createDirectoriesUpTo]
      split
      · exact NewDirectoriesIn.refl _ f
      · split
        · next g hg => exact hmake rfl hg
        · split
          · exact NewDirectoriesIn.refl _ f
          · next parent hparent =>
            have hup : NewDirectoriesIn {l | l <+: p.place f.home} f
                (f.createDirectoriesUpTo now fuel parent).1 := by
              refine (ih (hp.parent? hparent)).mono fun l hl => ?_
              refine List.IsPrefix.trans hl ?_
              rw [hp.place_parent? hparent, hp.place_eq]
              exact (List.prefix_append_right_inj _).2 (List.dropLast_prefix _)
            have hhome := (sameOutside_createDirectoriesUpTo f now fuel parent).home
            split
            · next g e hg => rw [hg] at hup; exact hup
            · next g hg =>
              rw [hg] at hup hhome
              split
              · next g' hg' => exact hup.trans (hmake hhome hg')
              · exact hup
        · exact NewDirectoriesIn.refl _ f

namespace SameOutside

/-- A path outside the changes is there exactly when it was. -/
theorem has_eq (hfg : SameOutside s f g) (hnew : NewDirectoriesIn t f g) (hf : f.IsTree)
    (hp : p.IsNamed) (hdown : p.IsDown) (hs : p.place f.home ∉ s) (ht : p.place f.home ∉ t) :
    g.has p = f.has p := by
  rw [Bool.eq_iff_iff, has_eq_true_iff, has_eq_true_iff]
  constructor
  · rintro ⟨l, node, hnode⟩
    have hplace := (find_place hnode).2
    rw [hfg.home] at hplace
    cases node with
    | file x =>
        exact ⟨_, _, (hf.find_eq_ok_iff hp hdown _ _).2 ⟨rfl, (hfg.files _ hs x).1 hplace⟩⟩
    | directory mode modified =>
        obtain ⟨mode', modified', hd⟩ := (hnew _ ⟨mode, modified, hplace⟩).resolve_right ht
        exact ⟨_, _, (hf.find_eq_ok_iff hp hdown _ _).2 ⟨rfl, hd⟩⟩
  · rintro ⟨l, node, hnode⟩
    cases node with
    | file x => exact ⟨l, _, hfg.find_file hp hs hnode⟩
    | directory mode modified =>
        obtain ⟨mode', modified', hd⟩ := hfg.find_directory hp hnode
        exact ⟨l, _, hd⟩

/-- And it is read as before, a directory with the fault that it is one. -/
theorem read_eq_of_has (hfg : SameOutside s f g) (hp : p.IsNamed) (hs : p.place f.home ∉ s)
    (h : f.has p = true) : g.read p = f.read p := by
  obtain ⟨l, node, hnode⟩ := (has_eq_true_iff f p).1 h
  cases node with
  | file x =>
      have hkept := hfg.find_file hp hs hnode
      rw [read, read, hkept, hnode]
  | directory mode modified =>
      obtain ⟨mode', modified', hd⟩ := hfg.find_directory hp hnode
      rw [read, read, hd, hnode]

end SameOutside

end Files

end StyleBuild
