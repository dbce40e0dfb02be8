import StyleBuild.Publisher.Publish

/-!
# Publishing all entries

`p.PublishesEach u results w` says that entries are published one after the other,
each from the world that the one before has left, that none of them fails, and
what comes of each. That is all there is to publishing the entries of a
publisher (`compileAll_sequential`): when none fails, the results are those, in
the order of the entries and with repeated ones repeated; otherwise the error is
the one of the first entry that fails, and the world is left as the attempt to
publish that entry has left it.
-/

namespace StyleBuild

namespace Publisher

variable {p : Publisher} {u v w : World} {entry : String} {entries : List String}
  {outcome : PublishOutcome} {results : List (String × PublishOutcome)} {e : Error}

/-- Entries are published one after the other, and none fails. -/
inductive PublishesEach (p : Publisher) : World → List (String × PublishOutcome) → World → Prop
  | nil (w : World) : PublishesEach p w [] w
  | cons {u v w : World} {entry : String} {outcome : PublishOutcome}
      {results : List (String × PublishOutcome)} (first : p.publish u entry = (v, .ok outcome))
      (rest : PublishesEach p v results w) : PublishesEach p u ((entry, outcome) :: results) w

theorem publishEach_of_error (h : p.publish u entry = (v, .error e)) :
    p.publishEach u (entry :: entries) = (v, .error e) := by
  rw [publishEach]
  simp only [h]

theorem publishEach_of_ok (h : p.publish u entry = (v, .ok outcome)) :
    p.publishEach u (entry :: entries) =
      ((p.publishEach v entries).1, (p.publishEach v entries).2.map ((entry, outcome) :: ·)) := by
  rw [publishEach]
  simp only [h]
  rcases p.publishEach v entries with ⟨w, e | results⟩ <;> rfl

/-- Entries that are published without an error leave the others to be published. -/
theorem publishEach_append (h : p.PublishesEach u results v) (entries : List String) :
    p.publishEach u (results.map Prod.fst ++ entries) =
      ((p.publishEach v entries).1, (p.publishEach v entries).2.map (results ++ ·)) := by
  induction h with
  | nil w =>
      rw [List.map_nil, List.nil_append]
      rcases p.publishEach w entries with ⟨w', e | results⟩ <;> rfl
  | cons first rest ih =>
      rw [List.map_cons, List.cons_append, publishEach_of_ok first, ih]
      rcases p.publishEach _ entries with ⟨w', e | results⟩ <;> rfl

/-- Either no entry fails, or there is a first one that does. -/
theorem publishesEach_or_fails (p : Publisher) (u : World) (entries : List String) :
    (∃ results w, results.map Prod.fst = entries ∧ p.PublishesEach u results w) ∨
      ∃ done entry rest v w e, entries = done.map Prod.fst ++ entry :: rest ∧
        p.PublishesEach u done v ∧ p.publish v entry = (w, .error e) := by
  induction entries generalizing u with
  | nil => exact .inl ⟨[], u, rfl, .nil u⟩
  | cons entry entries ih =>
      rcases hfirst : p.publish u entry with ⟨v, e | outcome⟩
      · exact .inr ⟨[], entry, entries, u, v, e, rfl, .nil u, hfirst⟩
      · rcases ih v with ⟨results, w, rfl, hrest⟩ | ⟨done, next, rest, v', w, e, rfl, hdone, hnext⟩
        · exact .inl ⟨(entry, outcome) :: results, w, rfl, .cons hfirst hrest⟩
        · exact .inr ⟨(entry, outcome) :: done, next, rest, v', w, e, rfl, .cons hfirst hdone,
            hnext⟩

theorem publishEach_of_publishesEach (h : p.PublishesEach u results w) :
    p.publishEach u (results.map Prod.fst) = (w, .ok results) := by
  have hall := publishEach_append h []
  rwa [List.append_nil, publishEach, Except.map, List.append_nil] at hall

theorem publishEach_of_fails {done : List (String × PublishOutcome)}
    (hdone : p.PublishesEach u done v) (h : p.publish v entry = (w, .error e)) :
    p.publishEach u (done.map Prod.fst ++ entry :: entries) = (w, .error e) := by
  rw [publishEach_append hdone, publishEach_of_error h, Except.map]

/-- All entries are published exactly when publishing them one after the other, each from the world
that the one before has left, fails for none; then there is a result for each, in order, and the
world is the last one. Otherwise the error and the world are those of the first entry that fails,
and nothing is done for the entries behind it. -/
theorem compileAll_sequential (p : Publisher) (u w : World) :
    (∀ results, p.compileAll u = (w, .ok results) ↔
        results.map Prod.fst = p.entries ∧ p.PublishesEach u results w) ∧
      ∀ e, p.compileAll u = (w, .error e) ↔
        ∃ done entry rest v, p.entries = done.map Prod.fst ++ entry :: rest ∧
          p.PublishesEach u done v ∧ p.publish v entry = (w, .error e) := by
  have hall : ∀ results, results.map Prod.fst = p.entries ∧ p.PublishesEach u results w →
      p.compileAll u = (w, .ok results) := by
    rintro results ⟨hentries, hrun⟩
    rw [compileAll, ← hentries, publishEach_of_publishesEach hrun]
  have hfirst : ∀ e, (∃ done entry rest v, p.entries = done.map Prod.fst ++ entry :: rest ∧
      p.PublishesEach u done v ∧ p.publish v entry = (w, .error e)) →
      p.compileAll u = (w, .error e) := by
    rintro e ⟨done, entry, rest, v, hentries, hdone, hfails⟩
    rw [compileAll, hentries, publishEach_of_fails hdone hfails]
  refine ⟨fun results => ⟨fun h => ?_, hall results⟩, fun e => ⟨fun h => ?_, hfirst e⟩⟩
  · rcases p.publishesEach_or_fails u p.entries with
      ⟨results', w', hentries, hrun⟩ | ⟨done, entry, rest, v, w', e, hentries, hdone, hfails⟩
    · rw [compileAll, ← hentries, publishEach_of_publishesEach hrun] at h
      cases h
      exact ⟨hentries, hrun⟩
    · rw [compileAll, hentries, publishEach_of_fails hdone hfails] at h
      cases h
  · rcases p.publishesEach_or_fails u p.entries with
      ⟨results, w', hentries, hrun⟩ | ⟨done, entry, rest, v, w', e', hentries, hdone, hfails⟩
    · rw [compileAll, ← hentries, publishEach_of_publishesEach hrun] at h
      cases h
    · rw [compileAll, hentries, publishEach_of_fails hdone hfails] at h
      cases h
      exact ⟨done, entry, rest, v, hentries, hdone, hfails⟩

end Publisher

end StyleBuild
