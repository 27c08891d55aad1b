import HeuristicEvolution.Proofs.Evolution.Steps
import HeuristicEvolution.World.LedgerFile

/-!
# Opening a ledger spares files

To open a ledger is to write: directories that are missing on the way are made, and a ledger without
records is put where there was nothing, or an empty file. Nothing else is written, so whatever was
recorded anywhere is there afterwards. This is told place by place, because a path may lead to the
same place as another one.

## Main definitions

* `Entry.Spared`: what may become of an entry.
* `Files.Spares`: a tree in which that has become of all entries.
* `Files.ledgerAt`: the records at a place.

## Main results

* `Files.spares_makeDirectories`, `Files.spares_openLedger`
* `Files.Spares.ledgerAt_eq`: the records are the same at all places.
-/

namespace HeuristicEvolution

/-- What may become of an entry: it stays, or something without contents is put where there was
nothing to lose. -/
inductive Entry.Spared : Option Entry → Option Entry → Prop
  | same (e : Option Entry) : Spared e e
  | directory : Spared none (some .directory)
  | created : Spared none (some (.ledger .empty))
  | filled : Spared (some (.text "")) (some (.ledger .empty))

theorem Entry.Spared.trans {a b c : Option Entry} (hab : Spared a b) (hbc : Spared b c) :
    Spared a c := by
  cases hab with
  | same => exact hbc
  | directory =>
    cases hbc
    exact .directory
  | created =>
    cases hbc
    exact .created
  | filled =>
    cases hbc
    exact .filled

namespace Files

/-- All entries of a tree are spared in another one. -/
def Spares (fs fs' : Files) : Prop := ∀ place, Entry.Spared (fs.at? place) (fs'.at? place)

/-- The records at a place; there are none where no ledger stands. -/
def ledgerAt (fs : Files) (place : Place) : Ledger :=
  match fs.at? place with
  | some (.ledger l) => l
  | _ => .empty

namespace Spares

theorem refl (fs : Files) : fs.Spares fs := fun _ => .same _

theorem trans {fs fs' fs'' : Files} (h : fs.Spares fs') (h' : fs'.Spares fs'') :
    fs.Spares fs'' := fun place => (h place).trans (h' place)

/-- **Where entries are spared, no records are touched.** -/
theorem ledgerAt_eq {fs fs' : Files} (h : fs.Spares fs') (place : Place) :
    fs'.ledgerAt place = fs.ledgerAt place := by
  have hplace := h place
  rw [ledgerAt, ledgerAt]
  generalize fs.at? place = before at hplace
  generalize fs'.at? place = after at hplace
  cases hplace <;> rfl

end Spares

variable {fs fs' : Files} {place : Place} {path : String} {e : Entry}

/-! ## Single entries -/

theorem at?_put_self (hplace : place ≠ []) : (fs.put place e).at? place = some e := by
  rw [at?, if_neg (by simpa using hplace), put, List.find?_cons_of_pos (by simp)]
  rfl

theorem at?_put_of_ne {other : Place} (h : other ≠ place) :
    (fs.put place e).at? other = fs.at? other := by
  have hkept : (fun old : Place × Entry => decide ((old.1 != place) = true ∧
      (old.1 == other) = true)) = fun old => old.1 == other := by
    funext old
    by_cases hold : old.1 = other <;> simp [hold, h]
  rw [at?, at?, put, List.find?_cons_of_neg (by simpa using h.symm), List.find?_filter, hkept]

/-- Something is put where nothing is lost. -/
theorem spares_put (h : Entry.Spared (fs.at? place) (some e)) : fs.Spares (fs.put place e) := by
  intro other
  by_cases hother : other = place
  · subst hother
    by_cases hroot : other = []
    · subst hroot
      exact .same _
    · rwa [at?_put_self hroot]
  · rw [at?_put_of_ne hother]
    exact .same _

theorem place_of_writtenPlace (h : fs.writtenPlace path = .ok place) :
    fs.place path = .ok place := by
  rw [writtenPlace] at h
  simp only at h
  split at h
  · obtain ⟨-, -, h⟩ := Except.bind_eq_ok h
    cases h
  · exact h

/-- An entry is written where its path leads. -/
theorem writeEntry_eq_ok (h : fs.writeEntry path e = .ok fs') :
    ∃ place, fs.entry? path = fs.at? place ∧ fs' = fs.put place e := by
  rw [writeEntry] at h
  obtain ⟨place, hplace, h⟩ := Except.bind_eq_ok h
  refine ⟨place, ?_, ?_⟩
  · unfold entry?
    rw [place_of_writtenPlace hplace]
  · have hallowed : ∀ {place : Place}, writeEntry.allowed fs e place = .ok fs' →
        fs' = fs.put place e := by
      intro place hput
      obtain ⟨-, -, hput⟩ := Except.bind_eq_ok hput
      exact (Except.ok.inj hput).symm
    split at h
    · cases h
    · exact hallowed h
    · split at h
      · exact hallowed h
      · cases h
      · cases h

/-! ## Directories and ledgers -/

theorem spares_makeAll {done rest : Place} (h : fs.makeAll done rest = .ok fs') :
    fs.Spares fs' := by
  induction rest generalizing fs done with
  | nil =>
    rw [makeAll] at h
    split at h
    · cases h
      exact .refl _
    · cases h
  | cons name rest ih =>
    rw [makeAll] at h
    split at h
    · exact ih h
    · cases h
    · next hnone =>
      split at h
      · cases h
      · refine (spares_put ?_).trans (ih h)
        rw [hnone]
        exact .directory

theorem spares_makeDirectories (h : fs.makeDirectories path = .ok fs') : fs.Spares fs' := by
  rw [makeDirectories] at h
  split at h
  · cases h
    exact .refl _
  · exact spares_makeAll h

theorem spares_makeLedgerDirectory (h : fs.makeLedgerDirectory path = .ok fs') :
    fs.Spares fs' := by
  rw [makeLedgerDirectory] at h
  split at h
  · obtain rfl := Except.ok.inj h
    exact .refl _
  · next parent _ =>
    cases hmade : fs.makeDirectories parent with
    | ok fs₁ =>
      rw [hmade] at h
      obtain rfl := Except.ok.inj h
      exact spares_makeDirectories hmade
    | error fault =>
      rw [hmade] at h
      cases h

theorem spares_created {l : Ledger} {before : Option Entry} (hentry : fs.entry? path = before)
    (hspared : Entry.Spared before (some (.ledger .empty)))
    (h : openLedger.created path fs = .ok (l, fs')) : fs.Spares fs' := by
  rw [openLedger.created] at h
  split at h
  · next hwritten =>
    obtain ⟨-, rfl⟩ := Prod.mk.inj (Except.ok.inj h)
    obtain ⟨place, hplace, rfl⟩ := writeEntry_eq_ok hwritten
    exact spares_put (by rwa [← hplace, hentry])
  · cases h

theorem spares_opened {l : Ledger} (h : openLedger.opened path fs = .ok (l, fs')) :
    fs.Spares fs' := by
  rw [openLedger.opened] at h
  split at h
  · obtain ⟨-, rfl⟩ := Prod.mk.inj (Except.ok.inj h)
    exact .refl _
  · next s hentry =>
    split at h
    · next hempty =>
      obtain rfl : s = "" := by simpa using hempty
      exact spares_created hentry .filled h
    · cases h
  · cases h
  · cases h
  · next hentry => exact spares_created hentry .created h

/-- **To open a ledger spares all files.** -/
theorem spares_openLedger {l : Ledger} (h : fs.openLedger path = .ok (l, fs')) :
    fs.Spares fs' := by
  rw [openLedger] at h
  split at h
  · obtain ⟨-, rfl⟩ := Prod.mk.inj (Except.ok.inj h)
    exact .refl _
  obtain ⟨fs₁, hmade, h⟩ := Except.bind_eq_ok h
  refine (spares_makeLedgerDirectory hmade).trans ?_
  split at h
  · cases h
  · exact spares_opened h

end Files

end HeuristicEvolution
