import HeuristicEvolution.CommandLine.Console
import HeuristicEvolution.Proofs.CommandLine.Failures
import HeuristicEvolution.Proofs.World.Opening

/-!
# Jobs and their configuration

The steps of a command are told apart by what they do to files, and by whether it can be the
configuration for which they fail. A command touches no records in such a failure if each of its
steps spares all files up to the last one that can fail in this way.

## Main definitions

* `Spares`: surroundings in which nothing was done but that files were changed, and all spared.
* `Job.Blames`: a job fails for its configuration.
* `Job.Sparing`, `Job.Blameless`, `Job.Careful`: jobs that spare all files, that never fail for
  their configuration, and that spare all files if they do.

## Main results

* `Job.Sparing.bind_careful`, `Job.Careful.bind`: how careful jobs are put together.
* `Job.sparing_openLedger`: to open a ledger spares all files.
* `Job.blames_bind_iff`, `Job.blames_openLedger_bind_iff`: which of its steps a job fails for.
-/

namespace HeuristicEvolution

open Evolution (bind_eq_ok_iff bind_eq_error_iff bind_of_ok)

namespace CommandLine

/-! ## Kinds of jobs -/

/-- Surroundings in which nothing was done but that files were changed, with all entries spared. -/
def Spares (s t : Surroundings) : Prop :=
  ∃ fs, s.world.files.Spares fs ∧ t = { s with world := { s.world with files := fs } }

theorem Spares.refl (s : Surroundings) : Spares s s := ⟨s.world.files, .refl _, rfl⟩

theorem Spares.trans {s t u : Surroundings} (h : Spares s t) (h' : Spares t u) : Spares s u := by
  obtain ⟨fs, hfs, rfl⟩ := h
  obtain ⟨fs', hfs', rfl⟩ := h'
  exact ⟨fs', hfs.trans hfs', rfl⟩

namespace Job

variable {α β : Type} {x : Job α} {f : α → Job β}

/-- A result that a job can have. -/
def Gives (x : Job α) (a : α) : Prop := ∃ c c', x c = .ok a c'

/-- A job that never fails for its configuration. -/
def Blameless (x : Job α) : Prop :=
  ∀ c e c', x c = .error e c' → e.isConfiguration = false

/-- A job that spares all files if it fails for its configuration. -/
def Careful (x : Job α) : Prop :=
  ∀ c e c', x c = .error e c' → e.isConfiguration = true → Spares c.surroundings c'.surroundings

/-- A job that spares all files if it succeeds, or fails for its configuration. -/
structure Sparing (x : Job α) : Prop where
  ok : ∀ c a c', x c = .ok a c' → Spares c.surroundings c'.surroundings
  careful : Careful x

theorem Blameless.careful (hx : Blameless x) : Careful x := by
  intro c e c' h hblame
  rw [hx c e c' h] at hblame
  cases hblame

theorem Blameless.bind (hx : Blameless x) (hf : ∀ a, Gives x a → Blameless (f a)) :
    Blameless (x >>= f) := by
  intro c e c' h
  obtain h | ⟨a, c₁, ha, h⟩ := bind_eq_error_iff.1 h
  · exact hx c e c' h
  · exact hf a ⟨c, c₁, ha⟩ c₁ e c' h

/-- Care is enough where nothing is to blame any more. -/
theorem Careful.bind (hx : Careful x) (hf : ∀ a, Gives x a → Blameless (f a)) :
    Careful (x >>= f) := by
  intro c e c' h hblame
  obtain h | ⟨a, c₁, ha, h⟩ := bind_eq_error_iff.1 h
  · exact hx c e c' h hblame
  · rw [hf a ⟨c, c₁, ha⟩ c₁ e c' h] at hblame
    cases hblame

theorem Sparing.bind_careful (hx : Sparing x) (hf : ∀ a, Gives x a → Careful (f a)) :
    Careful (x >>= f) := by
  intro c e c' h hblame
  obtain h | ⟨a, c₁, ha, h⟩ := bind_eq_error_iff.1 h
  · exact hx.careful c e c' h hblame
  · exact (hx.ok c a c₁ ha).trans (hf a ⟨c, c₁, ha⟩ c₁ e c' h hblame)

theorem Sparing.bind (hx : Sparing x) (hf : ∀ a, Gives x a → Sparing (f a)) :
    Sparing (x >>= f) := by
  refine ⟨fun c b c' h => ?_, hx.bind_careful fun a ha => (hf a ha).careful⟩
  obtain ⟨a, c₁, ha, h⟩ := bind_eq_ok_iff.1 h
  exact (hx.ok c a c₁ ha).trans ((hf a ⟨c, c₁, ha⟩).ok c₁ b c' h)

theorem Sparing.of_cases
    (h : ∀ c, (∃ a c', x c = .ok a c' ∧ Spares c.surroundings c'.surroundings) ∨
      ∃ e c', x c = .error e c' ∧ Spares c.surroundings c'.surroundings) : Sparing x := by
  refine ⟨fun c a c' hx => ?_, fun c e c' hx _ => ?_⟩
  · obtain ⟨b, c₁, hb, hspares⟩ | ⟨e, c₁, he, -⟩ := h c
    · cases hx.symm.trans hb
      exact hspares
    · cases hx.symm.trans he
  · obtain ⟨b, c₁, hb, -⟩ | ⟨e, c₁, he, hspares⟩ := h c
    · cases hx.symm.trans hb
    · cases hx.symm.trans he
      exact hspares

/-! ### Steps -/

theorem sparing_pure (a : α) : Sparing (pure a) :=
  .of_cases fun c => .inl ⟨a, c, rfl, .refl _⟩

theorem sparing_print (text : String) : Sparing (print text) :=
  .of_cases fun _ => .inl ⟨(), _, rfl, .refl _⟩

theorem sparing_note (text : String) : Sparing (note text) :=
  .of_cases fun _ => .inl ⟨(), _, rfl, .refl _⟩

theorem sparing_ofExcept (r : Except Failure α) : Sparing (ofExcept r) := by
  cases r with
  | ok a => exact sparing_pure a
  | error e => exact .of_cases fun c => .inr ⟨_, c, rfl, .refl _⟩

/-- An outcome that goes on leaves the console as it is. -/
theorem ofExcept_eq_ok {r : Except Failure α} {a : α} {c c' : Console}
    (h : ofExcept r c = .ok a c') : r = .ok a ∧ c' = c := by
  cases r with
  | ok b =>
    cases h
    exact ⟨rfl, rfl⟩
  | error e => cases h

theorem gives_ofExcept {r : Except Failure α} {a : α} (h : Gives (ofExcept r) a) : r = .ok a := by
  obtain ⟨c, c', h⟩ := h
  exact (ofExcept_eq_ok h).1

theorem files_eq (look : Files → α) (c : Console) :
    files look c = .ok (look c.surroundings.world.files) c := rfl

theorem sparing_files (look : Files → α) : Sparing (files look) :=
  .of_cases fun c => .inl ⟨_, _, files_eq look c, .refl _⟩

/-- A change of files that spares them all. -/
theorem sparing_change {edit : Files → Except FileFault Files}
    (hedit : ∀ fs fs', edit fs = .ok fs' → fs.Spares fs') : Sparing (change edit) := by
  refine .of_cases fun c => ?_
  rw [change, bind_of_ok (files_eq edit c)]
  cases hfs : edit c.surroundings.world.files with
  | ok fs => exact .inl ⟨(), _, rfl, fs, hedit _ _ hfs, rfl⟩
  | error fault => exact .inr ⟨_, _, rfl, .refl _⟩

/-- The system does not refuse for a configuration. -/
theorem blameless_change (edit : Files → Except FileFault Files) : Blameless (change edit) := by
  intro c e c' h
  rw [change, bind_of_ok (files_eq edit c)] at h
  cases hfs : edit c.surroundings.world.files with
  | ok fs =>
    rw [hfs] at h
    cases h
  | error fault =>
    rw [hfs] at h
    cases h
    rfl

theorem sparing_makeDirectoryOf (path : String) : Sparing (makeDirectoryOf path) := by
  rw [makeDirectoryOf]
  split
  · exact sparing_pure ()
  · exact sparing_change fun fs fs' h => Files.spares_makeDirectories h

/-- **To open a ledger spares all files.** -/
theorem sparing_openLedger (path : String) : Sparing (openLedger path) := by
  refine .of_cases fun c => ?_
  rw [openLedger, bind_of_ok (files_eq _ c)]
  cases hfs : c.surroundings.world.files.openLedger path with
  | ok opened => exact .inl ⟨opened.1, _, rfl, opened.2, Files.spares_openLedger hfs, rfl⟩
  | error fault => exact .inr ⟨_, _, rfl, .refl _⟩

/-- Nor does a ledger that cannot be opened. -/
theorem blameless_openLedger (path : String) : Blameless (openLedger path) := by
  intro c e c' h
  rw [openLedger, bind_of_ok (files_eq _ c)] at h
  cases hfs : c.surroundings.world.files.openLedger path with
  | ok opened =>
    rw [hfs] at h
    cases h
  | error fault =>
    rw [hfs] at h
    cases h
    cases fault <;> rfl

/-- The ledger comes from the files, and nothing is printed. -/
theorem openLedger_eq_ok {path : String} {l : Ledger} {c c' : Console}
    (h : openLedger path c = .ok l c') :
    (∃ fs, c.surroundings.world.files.openLedger path = .ok (l, fs)) ∧ c'.stdout = c.stdout := by
  rw [openLedger, bind_of_ok (files_eq _ c)] at h
  cases hopened : c.surroundings.world.files.openLedger path with
  | ok opened =>
    rw [hopened] at h
    cases h
    exact ⟨⟨opened.2, rfl⟩, rfl⟩
  | error fault =>
    rw [hopened] at h
    cases h

theorem blameless_setFiles (fs : Files) : Blameless (setFiles fs) := nofun

theorem blameless_note (text : String) : Blameless (note text) := nofun

theorem blameless_keepLedger (path : String) (l : Ledger) : Blameless (keepLedger path l) := nofun

theorem blameless_checkout : Blameless checkout := nofun

/-! ### Failures for the configuration -/

/-- A job fails for its configuration. -/
def Blames (x : Job α) (c : Console) : Prop :=
  ∃ e c', x c = .error e c' ∧ e.isConfiguration = true

variable {c : Console}

theorem Blameless.not_blames (hx : Blameless x) : ¬ Blames x c := by
  rintro ⟨e, c', h, hblame⟩
  rw [hx c e c' h] at hblame
  cases hblame

theorem blames_ofExcept_iff {r : Except Failure α} :
    Blames (ofExcept r) c ↔ ∃ e, r = .error e ∧ e.isConfiguration = true := by
  constructor
  · rintro ⟨e, c', h, hblame⟩
    cases r with
    | ok a => cases h
    | error e' =>
      cases h
      exact ⟨e', rfl, hblame⟩
  · rintro ⟨e, rfl, hblame⟩
    exact ⟨_, c, rfl, hblame⟩

theorem blameless_ofExcept {r : Except Failure α} (hr : FailsBy false r) :
    Blameless (ofExcept r) := by
  intro c e c' h
  cases r with
  | ok a => cases h
  | error e' =>
    cases h
    exact hr e' rfl

theorem blames_bind_iff :
    Blames (x >>= f) c ↔ Blames x c ∨ ∃ a c', x c = .ok a c' ∧ Blames (f a) c' := by
  constructor
  · rintro ⟨e, c', h, hblame⟩
    obtain h | ⟨a, c₁, ha, h⟩ := bind_eq_error_iff.1 h
    · exact .inl ⟨e, c', h, hblame⟩
    · exact .inr ⟨a, c₁, ha, e, c', h, hblame⟩
  · rintro (⟨e, c', h, hblame⟩ | ⟨a, c₁, ha, e, c', h, hblame⟩)
    · exact ⟨e, c', bind_eq_error_iff.2 (.inl h), hblame⟩
    · exact ⟨e, c', bind_eq_error_iff.2 (.inr ⟨a, c₁, ha, h⟩), hblame⟩

/-- What is never to blame need not be looked at behind a job. -/
theorem blames_bind_iff_of_blameless (hf : ∀ a, Gives x a → Blameless (f a)) :
    Blames (x >>= f) c ↔ Blames x c := by
  rw [blames_bind_iff, or_iff_left]
  rintro ⟨a, c', ha, hblame⟩
  exact (hf a ⟨c, c', ha⟩).not_blames hblame

theorem blames_files_bind_iff {look : Files → β} {f : β → Job α} :
    Blames (files look >>= f) c ↔ Blames (f (look c.surroundings.world.files)) c := by
  rw [Blames, bind_of_ok (files_eq look c)]
  rfl

/-- A change of files is not to blame; what follows may be, in the files that it leaves. -/
theorem blames_change_bind_iff {edit : Files → Except FileFault Files} {f : Unit → Job α}
    {P : Files → Prop} (hf : ∀ c, Blames (f ()) c ↔ P c.surroundings.world.files) :
    Blames (change edit >>= f) c ↔ ∃ fs, edit c.surroundings.world.files = .ok fs ∧ P fs := by
  rw [blames_bind_iff, or_iff_right (blameless_change edit).not_blames, change,
    bind_of_ok (files_eq edit c)]
  cases hfs : edit c.surroundings.world.files with
  | ok fs =>
    constructor
    · rintro ⟨u, c', h, hblame⟩
      cases h
      exact ⟨fs, rfl, (hf _).1 hblame⟩
    · rintro ⟨_, ⟨⟩, hfs⟩
      exact ⟨(), _, rfl, (hf _).2 hfs⟩
  | error fault =>
    constructor
    · rintro ⟨u, c', h, -⟩
      cases h
    · rintro ⟨_, ⟨⟩, -⟩

/-- A ledger that cannot be opened is not to blame; what it holds may be. -/
theorem blames_openLedger_bind_iff {path : String} {f : Ledger → Job α} {P : Ledger → Prop}
    (hf : ∀ l c, Blames (f l) c ↔ P l) :
    Blames (openLedger path >>= f) c ↔
      ∃ l fs, c.surroundings.world.files.openLedger path = .ok (l, fs) ∧ P l := by
  rw [blames_bind_iff, or_iff_right (blameless_openLedger path).not_blames, openLedger,
    bind_of_ok (files_eq _ c)]
  cases hopened : c.surroundings.world.files.openLedger path with
  | ok opened =>
    obtain ⟨l, fs⟩ := opened
    constructor
    · rintro ⟨l', c', h, hblame⟩
      cases h
      exact ⟨l, fs, rfl, (hf l _).1 hblame⟩
    · rintro ⟨_, _, ⟨⟩, hl⟩
      exact ⟨l, _, rfl, (hf l _).2 hl⟩
  | error fault =>
    constructor
    · rintro ⟨l, c', h, -⟩
      cases h
    · rintro ⟨_, _, ⟨⟩, -⟩

end Job

end CommandLine

end HeuristicEvolution
