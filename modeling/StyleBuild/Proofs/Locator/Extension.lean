import StyleBuild.Proofs.Files.Place
import StyleBuild.Proofs.Locator.Precedence

/-!
# Tokens with and without the extension

A token may be written with the extension of sources or without it. The
underscore of a partial goes before the last segment and the extension behind
it, so the two are put there in either order (`partialName_joined`), and a token
that is looked up at all is looked up under the same logical paths both ways
(`candidates_append_extension`).
-/

namespace StyleBuild

open Text

variable {front : List (List Char)} {last s : List Char}

/-- The last segment stands behind the other ones, each with its separator. -/
theorem joined_concat (sep : Char) (front : List (List Char)) (last : List Char) :
    joined sep (front ++ [last]) = front.flatMap (· ++ [sep]) ++ last := by
  induction front with
  | nil => rfl
  | cons l front ih =>
      rw [List.flatMap_cons, List.append_assoc, ← ih]
      cases front <;> simp [joined]

theorem joined_concat_append (sep : Char) (front : List (List Char)) (last t : List Char) :
    joined sep (front ++ [last]) ++ t = joined sep (front ++ [last ++ t]) := by
  rw [joined_concat, joined_concat, List.append_assoc]

theorem takeWhile_reverse_flatMap (sep : Char) (front : List (List Char)) :
    (front.flatMap (· ++ [sep])).reverse.takeWhile (· ≠ sep) = [] := by
  rcases List.eq_nil_or_concat' front with rfl | ⟨init, l, rfl⟩
  · rfl
  · simp [List.flatMap_append]

/-- The partial of a text has an underscore before its last segment. -/
theorem partialName_joined (hsep : '/' ∉ last) (hne : last ≠ []) :
    partialName (joined '/' (front ++ [last])) = joined '/' (front ++ ['_' :: last]) := by
  have hall : ∀ c ∈ last.reverse, decide (c ≠ '/') = true := fun c hc =>
    decide_eq_true fun h => hsep (h ▸ List.mem_reverse.1 hc)
  have hlast : ((joined '/' (front ++ [last])).reverse.takeWhile (· ≠ '/')).reverse = last := by
    rw [joined_concat, List.reverse_append, List.takeWhile_append_of_pos hall,
      takeWhile_reverse_flatMap, List.append_nil, List.reverse_reverse]
  simp only [partialName, hlast]
  rw [if_neg (by simpa using hne), joined_concat, joined_concat, List.length_append,
    Nat.add_sub_cancel, List.take_left]

theorem withSourceExtension_of_not_suffix (h : ¬ sourceExtension.toList <:+ s) :
    withSourceExtension s = s ++ sourceExtension.toList := by
  rw [withSourceExtension, if_neg]
  rwa [endsWith_iff_suffix]

theorem withSourceExtension_append (s : List Char) :
    withSourceExtension (s ++ sourceExtension.toList) = s ++ sourceExtension.toList := by
  rw [withSourceExtension, if_pos]
  rw [endsWith_iff_suffix]
  exact List.suffix_append _ _

/-- An underscore before the last segment completes no extension. -/
theorem not_suffix_partial (h : ¬ sourceExtension.toList <:+ joined '/' (front ++ [last])) :
    ¬ sourceExtension.toList <:+ joined '/' (front ++ ['_' :: last]) := by
  intro hpartial
  rw [joined_concat] at h hpartial
  rcases List.suffix_or_suffix_of_suffix hpartial (List.suffix_append _ _) with hshort | hlong
  · rcases List.suffix_cons_iff.1 hshort with heq | hlast
    · cases heq
    · exact h (hlast.trans (List.suffix_append _ _))
  · have hmem : '_' ∈ sourceExtension.toList := hlong.subset List.mem_cons_self
    revert hmem
    decide

/-- A text that begins with `p` needs nothing from a character that is not in `p`. -/
theorem isPrefix_of_append_cons {p t : List Char} {c : Char} (hc : c ∉ p)
    (h : p <+: s ++ c :: t) : p <+: s := by
  rcases List.prefix_or_prefix_of_prefix h (List.prefix_append s (c :: t)) with hp | ⟨rest, rfl⟩
  · exact hp
  · cases rest with
    | nil => rw [List.append_nil]
    | cons d rest =>
        have hd := (List.cons_prefix_cons.1 ((List.prefix_append_right_inj s).1 h)).1
        exact absurd (by rw [hd]; simp) hc

/-- The extension makes no token a plain style sheet or an address. -/
theorem isPassthrough_append_extension {token : String} (h : isPassthrough token = false) :
    isPassthrough (token ++ sourceExtension) = false := by
  rw [Bool.eq_false_iff, Ne, isPassthrough_iff] at h ⊢
  rw [String.toList_append]
  rintro (hcss | hhttp | hhttps)
  · have hshort : ".css".toList <:+ sourceExtension.toList :=
      List.suffix_of_suffix_length_le hcss (List.suffix_append _ _) (by decide)
    revert hshort
    decide
  · exact h (.inr (.inl (isPrefix_of_append_cons (by decide) hhttp)))
  · exact h (.inr (.inr (isPrefix_of_append_cons (by decide) hhttps)))

section Names

variable {token : String}

theorem eq_joined_of_segments (hsegs : segments '/' token.toList = front ++ [last]) :
    token.toList = joined '/' (front ++ [last]) := by
  rw [← hsegs, joined_segments]

theorem notMem_of_segments (hsegs : segments '/' token.toList = front ++ [last]) : '/' ∉ last :=
  notMem_of_mem_segments '/' token.toList last (hsegs ▸ List.mem_append_right _ (by simp))

theorem segments_append_extension (hsegs : segments '/' token.toList = front ++ [last]) :
    segments '/' (token ++ sourceExtension).toList =
      front ++ [last ++ sourceExtension.toList] := by
  rw [String.toList_append]
  exact segments_append_of_notMem hsegs (by decide)

theorem candidateNames_of_not_suffix (hsegs : segments '/' token.toList = front ++ [last])
    (hne : last ≠ []) (hplain : ¬ sourceExtension.toList <:+ token.toList) :
    candidateNames token = [token ++ sourceExtension,
      String.ofList (joined '/' (front ++ ['_' :: (last ++ sourceExtension.toList)]))] := by
  have htext := eq_joined_of_segments hsegs
  have hpartial : partialName (joined '/' (front ++ [last])) =
      joined '/' (front ++ ['_' :: last]) := partialName_joined (notMem_of_segments hsegs) hne
  rw [candidateNames, withSourceExtension_of_not_suffix hplain, htext, hpartial,
    withSourceExtension_of_not_suffix (not_suffix_partial (htext ▸ hplain)), ← htext,
    ← String.toList_append, joined_concat_append, List.map_cons, List.map_singleton,
    String.ofList_toList, List.cons_append]

/-- With the extension the names are the same, without the check of the extension. -/
theorem candidateNames_append (hsegs : segments '/' token.toList = front ++ [last])
    (hne : last ≠ []) :
    candidateNames (token ++ sourceExtension) = [token ++ sourceExtension,
      String.ofList (joined '/' (front ++ ['_' :: (last ++ sourceExtension.toList)]))] := by
  have hsegs' := segments_append_extension hsegs
  have hpartial : partialName (token ++ sourceExtension).toList =
      joined '/' (front ++ ['_' :: (last ++ sourceExtension.toList)]) := by
    rw [eq_joined_of_segments hsegs']
    exact partialName_joined (notMem_of_segments hsegs') (by simp [hne])
  rw [candidateNames, hpartial, ← List.cons_append, ← joined_concat_append,
    withSourceExtension_append, String.toList_append, withSourceExtension_append,
    ← String.toList_append, List.map_cons, List.map_singleton, String.ofList_toList]

end Names

namespace Locator

/-- A token that is looked up, does not end in the extension of sources and has a last segment that
is not empty is looked up in the same way with the extension as without: under the same two names,
of which the second one is the first with an underscore before its last segment, under the same
logical paths in the same order, and with the same outcome, whatever answers the look-ups. -/
theorem candidates_append_extension (token : String) (hlookup : isPassthrough token = false)
    (hplain : ¬ sourceExtension.toList <:+ token.toList)
    (hnamed : (segments '/' token.toList).getLast? ≠ some []) :
    candidateNames (token ++ sourceExtension) = candidateNames token ∧
      (∃ front last, last ≠ [] ∧
        segments '/' (token ++ sourceExtension).toList = front ++ [last] ∧
        candidateNames token = [token ++ sourceExtension,
          String.ofList (joined '/' (front ++ ['_' :: last]))]) ∧
      ∀ l : Locator, l.candidates (token ++ sourceExtension) = l.candidates token ∧
        ∀ find, l.resolveTraced find (token ++ sourceExtension) = l.resolveTraced find token ∧
          l.resolve find (token ++ sourceExtension) = l.resolve find token := by
  obtain ⟨front, last, hsegs⟩ :=
    (List.eq_nil_or_concat' (segments '/' token.toList)).resolve_left (segments_ne_nil _ _)
  have hne : last ≠ [] := by
    rintro rfl
    exact hnamed (by rw [hsegs, List.getLast?_concat])
  have hnames := candidateNames_of_not_suffix hsegs hne hplain
  have hsame : candidateNames (token ++ sourceExtension) = candidateNames token :=
    (candidateNames_append hsegs hne).trans hnames.symm
  have hcandidates (l : Locator) :
      l.candidates (token ++ sourceExtension) = l.candidates token := by
    rw [candidates, candidates, isPassthrough_append_extension hlookup, hlookup, hsame]
  refine ⟨hsame, ⟨front, _, by simp [hne], segments_append_extension hsegs, hnames⟩,
    fun l => ⟨hcandidates l, fun find => ?_⟩⟩
  rw [resolve, resolve, resolveTraced, resolveTraced, hcandidates l]
  exact ⟨rfl, rfl⟩

/-- A token with a dot, an underscore and a line feed, of which only the partial is a file. -/
theorem candidates_append_extension_partial :
    isPassthrough "forms/_a.css\nb" = false ∧
      ¬ sourceExtension.toList <:+ "forms/_a.css\nb".toList ∧
      (segments '/' "forms/_a.css\nb".toList).getLast? ≠ some [] ∧
      candidateNames "forms/_a.css\nb" = ["forms/_a.css\nb.scss", "forms/__a.css\nb.scss"] ∧
      (Locator.mk ["custom", ""]).resolveTraced
          (fun logical => if logical = "forms/__a.css\nb.scss" then some ⟨"b"⟩ else none)
          "forms/_a.css\nb.scss" =
        (["custom/forms/_a.css\nb.scss", "custom/forms/__a.css\nb.scss", "forms/_a.css\nb.scss",
          "forms/__a.css\nb.scss"], some ⟨"forms/__a.css\nb.scss", ⟨"b"⟩⟩) := by
  have hlookup : isPassthrough "forms/_a.css\nb" = false := by decide
  have hplain : ¬ sourceExtension.toList <:+ "forms/_a.css\nb".toList := by decide
  have hnamed : (segments '/' "forms/_a.css\nb".toList).getLast? ≠ some [] := by decide
  obtain ⟨hnames, -, hlookups⟩ :=
    candidates_append_extension "forms/_a.css\nb" hlookup hplain hnamed
  refine ⟨hlookup, hplain, hnamed, hnames.symm.trans (by decide +kernel), ?_⟩
  exact ((hlookups _).2 _).1.trans (by decide +kernel)

end Locator

end StyleBuild
