import HeuristicEvolution.Proofs.Path.Resolution
import HeuristicEvolution.Proofs.World.Opening
import HeuristicEvolution.World.Command

/-!
# The place of a file

A path is followed through the tree, one directory after the other, and it is refused where there is
none. What it cannot do is to lead elsewhere because of what stands in the tree: the place to which
it leads is its *goal*, which is known from the path and the current directory alone. So two trees
that differ at one place agree on where their paths lead, except for those that pass through it.

## Main definitions

* `Files.goal`: the place to which a path leads if it leads anywhere.
* `Files.SameGround`: what no change of a tree moves.
* `Files.sticksAt`: what stands at a place cannot be removed as a file.
* `Files.without`: a tree without what stands at one place.
* `Files.HasFileAt`: a path leads to a file.

## Main results

* `Path.ofString_append`: the steps of an entry of a directory.
* `Files.place_eq_goal`: a path that is followed ends at its goal.
* `Files.removeFile_of_sticks`, `Files.at?_tried_removeFile`: what a removal leaves.
* `Files.makeDirectories_without`: making directories does not depend on a file beside them.
* `Files.removeFile_without`: without the file, there is nothing left to remove.
-/

namespace HeuristicEvolution

namespace Path

/-! ## Entries of a directory -/

/-- How a text is read, whether it is absolute or not. The part before the first slash of an
absolute path is empty, so it is no step. -/
theorem ofString_eq (s : String) :
    ofString s = ⟨decide (s.toList.head? = some '/'),
      (if (splitOn '/' s.toList).head? = some ['.'] then [.here] else []) ++
        (splitOn '/' s.toList).filterMap Step.ofPart?⟩ := by
  unfold ofString
  split
  · next cs htext =>
    have hsplit : splitOn '/' ('/' :: cs) = [] :: splitOn '/' cs := by rw [splitOn, if_pos rfl]
    rw [htext, hsplit]
    rfl
  · next hrelative =>
    have hhead : s.toList.head? ≠ some '/' := by
      intro hhead
      obtain ⟨cs, hcs⟩ := List.head?_eq_some_iff.mp hhead
      exact hrelative cs hcs
    simp only [hhead, decide_false]
    split <;> rfl

theorem splitOn_append (cs : List Char) {name : List Char} (h : '/' ∉ name) :
    splitOn '/' (cs ++ '/' :: name) = splitOn '/' cs ++ [name] := by
  rw [splitOn_eq, splitOn_eq, List.splitOn_append_cons_self, List.splitOn_eq_singleton h]

/-- The text of an entry of a directory is that of the directory with one slash behind it. -/
theorem toList_append (dir : String) {name : String} (h : IsName name.toList) :
    (dir = "" ∧ append dir name = name) ∨ dir ≠ "" ∧ ∃ cs,
      (dir.toList = cs ∨ dir.toList = cs ++ ['/']) ∧
        (append dir name).toList = cs ++ '/' :: name.toList := by
  have hname : name.startsWith "/" = false := by
    rw [Bool.eq_false_iff, Ne, String.startsWith_string_iff]
    rintro ⟨rest, hrest⟩
    exact h.2 (hrest ▸ List.mem_append_left rest List.mem_cons_self)
  rw [append, if_neg (by simp [hname])]
  by_cases hdir : dir = ""
  · exact .inl ⟨hdir, by simp [hdir]⟩
  refine .inr ⟨hdir, ?_⟩
  by_cases hslash : dir.endsWith "/" = true
  · rw [if_pos (by simp [hslash])]
    rw [String.endsWith_eq_endsWith_toSlice, String.Slice.endsWith_string_iff,
      String.copy_toSlice] at hslash
    obtain ⟨cs, hcs⟩ := hslash
    exact ⟨cs, .inr hcs.symm, by rw [String.toList_append, ← hcs]; simp⟩
  · rw [if_neg (by simp [hdir, hslash])]
    exact ⟨dir.toList, .inl rfl, by simp⟩

/-- **The steps of an entry of a directory**: those of the directory, and one into the entry. -/
theorem ofString_append (dir : String) {name : String} (h : IsName name.toList) :
    ofString (append dir name) =
      ⟨(ofString dir).absolute, (ofString dir).steps ++ [.into name.toList]⟩ := by
  have hlast : [name.toList].filterMap Step.ofPart? = [.into name.toList] := by
    rw [List.filterMap_cons_some h.1]
    rfl
  obtain ⟨rfl, htext⟩ | ⟨hdir, cs, hcs, htext⟩ := toList_append dir h
  · have hhead : name.toList.head? ≠ some '/' := fun heq => h.2 (List.mem_of_head? heq)
    have hnot : name.toList ≠ ['.'] := fun heq => nomatch heq ▸ h.1
    have hsplit : splitOn '/' name.toList = [name.toList] := by
      rw [splitOn_eq, List.splitOn_eq_singleton h.2]
    rw [htext, ofString_eq, hsplit, hlast]
    simp only [hhead, List.head?_cons, Option.some.injEq, hnot, decide_false, if_false]
    rfl
  · -- the directory and its entry open with the same part and, if they are absolute, with a slash
    have hpart : ∀ tail, (splitOn '/' cs ++ tail).head? = (splitOn '/' cs).head? := fun tail =>
      List.head?_append_of_ne_nil _ (splitOn_eq '/' cs ▸ List.splitOn_ne_nil _ _)
    have hhead : (cs ++ '/' :: name.toList).head? = dir.toList.head? := by
      obtain hcs | hcs := hcs
      · have hne : cs ≠ [] := fun heq => hdir (String.toList_eq_nil_iff.mp (hcs.trans heq))
        rw [hcs, List.head?_append_of_ne_nil _ hne]
      · rw [hcs]
        cases cs <;> rfl
    have hdirectory : (splitOn '/' dir.toList).head? = (splitOn '/' cs).head? ∧
        (splitOn '/' dir.toList).filterMap Step.ofPart? =
          (splitOn '/' cs).filterMap Step.ofPart? := by
      obtain hcs | hcs := hcs
      · rw [hcs]
        exact ⟨rfl, rfl⟩
      · rw [hcs, splitOn_append cs List.not_mem_nil, List.filterMap_append]
        exact ⟨hpart _, List.append_nil _⟩
    rw [ofString_eq, ofString_eq, htext, splitOn_append cs h.2, hhead, hpart, hdirectory.1,
      hdirectory.2, List.filterMap_append, hlast, List.append_assoc]

end Path

namespace Files

variable {fs fs' : Files} {q place : Place} {path : String} {e : Entry}

/-! ## Where a path leads -/

/-- One step of a walk that does not look at the tree. -/
def walk (reached : Place) : Path.Step → Place
  | .here => reached
  | .up => reached.dropLast
  | .into name => reached ++ [String.ofList name]

/-- The place to which a path leads if everything on the way to it is a directory. -/
def goal (fs : Files) (path : String) : Place :=
  let p := Path.ofString path
  p.steps.foldl walk (if p.absolute then [] else fs.here)

/-- Two trees with one current directory, in which the same is refused. -/
structure SameGround (fs fs' : Files) : Prop where
  here_eq : fs'.here = fs.here
  refusal_eq : fs'.refusal = fs.refusal

theorem SameGround.refl (fs : Files) : fs.SameGround fs := ⟨rfl, rfl⟩

theorem SameGround.trans {fs'' : Files} (h : fs.SameGround fs') (h' : fs'.SameGround fs'') :
    fs.SameGround fs'' :=
  ⟨h'.here_eq.trans h.here_eq, h'.refusal_eq.trans h.refusal_eq⟩

theorem SameGround.goal_eq (h : fs.SameGround fs') (path : String) :
    fs'.goal path = fs.goal path := by
  rw [goal, goal, h.here_eq]

/-- The goal of an entry is the goal of its directory and the name of the entry. -/
theorem goal_append (dir : String) {name : String} (h : Path.IsName name.toList) :
    fs.goal (Path.append dir name) = fs.goal dir ++ [name] := by
  simp only [goal, Path.ofString_append dir h, List.foldl_append, List.foldl_cons, List.foldl_nil,
    walk, String.ofList_toList]

theorem step_of_directory (h : fs.at? q = some .directory) (s : Path.Step) :
    fs.step q s = .ok (walk q s) := by
  unfold step
  rw [h]
  cases s <;> rfl

/-- A step that is not refused starts from a directory. -/
theorem step_eq_ok {s : Path.Step} (h : fs.step q s = .ok place) :
    fs.at? q = some .directory ∧ place = walk q s := by
  have hdirectory : fs.at? q = some .directory := by
    unfold step at h
    split at h
    · cases h
    · assumption
    · cases h
  exact ⟨hdirectory, (Except.ok.inj ((step_of_directory hdirectory s).symm.trans h)).symm⟩

/-- A walk that is not refused goes through directories, and so it goes the same way wherever these
are directories. -/
theorem foldlM_step_eq_ok (hdirs : ∀ q, fs.at? q = some .directory → fs'.at? q = some .directory)
    {steps : List Path.Step} (h : steps.foldlM fs.step q = .ok place) :
    place = steps.foldl walk q ∧ steps.foldlM fs'.step q = .ok place := by
  induction steps generalizing q with
  | nil =>
    obtain rfl := Except.ok.inj h
    exact ⟨rfl, rfl⟩
  | cons s rest ih =>
    obtain ⟨next, hnext, hrest⟩ := Except.bind_eq_ok h
    obtain ⟨hq, rfl⟩ := step_eq_ok hnext
    obtain ⟨hgoal, hfollowed⟩ := ih hrest
    exact ⟨hgoal, by rw [List.foldlM_cons, step_of_directory (hdirs q hq)]; exact hfollowed⟩

/-- A path that is followed: its steps lead through directories, and with a slash at its end it
leads to one. -/
theorem place_eq_ok_iff : fs.place path = .ok place ↔
    path ≠ "" ∧
      (Path.ofString path).steps.foldlM fs.step
        (if (Path.ofString path).absolute then [] else fs.here) = .ok place ∧
      (path.endsWith "/" = true → fs.isDirectoryAt place = true) := by
  rw [Files.place]
  split
  · next hempty => simp_all
  · next hne =>
    cases hwalk : (Path.ofString path).steps.foldlM fs.step
        (if (Path.ofString path).absolute then [] else fs.here) with
    | error fault => simp [hwalk, Except.bind]
    | ok found =>
      simp only [hwalk, Except.bind, Except.ok.injEq]
      constructor
      · intro h
        split at h
        · cases h
        · next hfound =>
          obtain rfl := Except.ok.inj h
          exact ⟨by simpa using hne, rfl, by simpa using hfound⟩
      · rintro ⟨-, rfl, hslash⟩
        rw [if_neg (by simpa using hslash)]

/-- **A path that is followed ends at its goal.** -/
theorem place_eq_goal (h : fs.place path = .ok place) : place = fs.goal path :=
  (foldlM_step_eq_ok (fun _ => id) (place_eq_ok_iff.mp h).2.1).1

theorem isDirectoryAt_iff : fs.isDirectoryAt place = true ↔ fs.at? place = some .directory := by
  rw [isDirectoryAt]
  split
  · next hat => simp [hat]
  · next hnot => simpa using hnot

/-- A path leads to the same place in every tree that has the directories of this one. -/
theorem place_eq_of_directories (h : fs.place path = .ok place) (hhere : fs'.here = fs.here)
    (hdirs : ∀ q, fs.at? q = some .directory → fs'.at? q = some .directory) :
    fs'.place path = .ok place := by
  obtain ⟨hne, hwalk, hslash⟩ := place_eq_ok_iff.mp h
  refine place_eq_ok_iff.mpr ⟨hne, ?_, fun hend => ?_⟩
  · rw [hhere]
    exact (foldlM_step_eq_ok hdirs hwalk).2
  · exact isDirectoryAt_iff.mpr (hdirs place (isDirectoryAt_iff.mp (hslash hend)))

theorem isDirectory_iff : fs.isDirectory path = true ↔
    ∃ q, fs.place path = .ok q ∧ fs.at? q = some .directory := by
  unfold isDirectory entry?
  constructor
  · intro h
    split at h
    · next hentry =>
      split at hentry
      · next q hq => exact ⟨q, hq, hentry⟩
      · cases hentry
    · cases h
  · rintro ⟨q, hq, hdirectory⟩
    rw [hq]
    simp only [hdirectory]

theorem exists?_iff : fs.exists? path = true ↔
    ∃ place e, fs.place path = .ok place ∧ fs.at? place = some e := by
  unfold exists? entry?
  cases fs.place path with
  | error fault => simp
  | ok found => simp [Option.isSome_iff_exists]

/-- **A path to an entry is followed exactly if the one to its directory leads to a directory.** -/
theorem place_append_eq_ok_iff {dir name : String} (hdir : dir ≠ "")
    (h : Path.IsName name.toList) : fs.place (Path.append dir name) = .ok place ↔
      fs.isDirectory dir = true ∧ place = fs.goal dir ++ [name] := by
  obtain ⟨rfl, -⟩ | ⟨-, cs, -, htext⟩ := Path.toList_append dir h
  · exact absurd rfl hdir
  have hne : Path.append dir name ≠ "" := fun heq => by simp [heq] at htext
  have hslash : (Path.append dir name).endsWith "/" = false := by
    rw [Bool.eq_false_iff, Ne, String.endsWith_eq_endsWith_toSlice,
      String.Slice.endsWith_string_iff, String.copy_toSlice, htext]
    intro hsuffix
    have hname : name.toList ≠ [] := fun heq => nomatch heq ▸ h.1
    have hlast : '/' = name.toList.getLast hname := by
      have hends := hsuffix.getLast (List.cons_ne_nil _ _)
      rwa [List.getLast_append_of_right_ne_nil _ _ (List.cons_ne_nil _ _),
        List.getLast_cons hname] at hends
    exact h.2 (hlast ▸ List.getLast_mem hname)
  rw [place_eq_ok_iff, hslash, Path.ofString_append dir h, List.foldlM_append]
  constructor
  · rintro ⟨-, hwalk, -⟩
    obtain ⟨q, hq, hlast⟩ := Except.bind_eq_ok hwalk
    obtain ⟨next, hnext, hlast⟩ := Except.bind_eq_ok hlast
    obtain ⟨hdirectory, rfl⟩ := step_eq_ok hnext
    obtain rfl := Except.ok.inj hlast
    have hplace : fs.place dir = .ok q :=
      place_eq_ok_iff.mpr ⟨hdir, hq, fun _ => isDirectoryAt_iff.mpr hdirectory⟩
    exact ⟨isDirectory_iff.mpr ⟨q, hplace, hdirectory⟩, by
      rw [walk, String.ofList_toList, place_eq_goal hplace]⟩
  · rintro ⟨hdirectory, rfl⟩
    obtain ⟨q, hplace, hat⟩ := isDirectory_iff.mp hdirectory
    obtain ⟨-, hq, -⟩ := place_eq_ok_iff.mp hplace
    refine ⟨hne, ?_, nofun⟩
    rw [hq, ← place_eq_goal hplace]
    simp only [bind, Except.bind, List.foldlM_cons, step_of_directory hat, walk,
      String.ofList_toList]
    rfl

/-! ## The ground on which a tree stands

Nothing that is done to a tree moves the current directory or what is refused in it, so goals are
the same throughout. -/

theorem sameGround_makeAll {done rest : Place} (h : fs.makeAll done rest = .ok fs') :
    fs.SameGround fs' := by
  induction rest generalizing fs done with
  | nil =>
    rw [makeAll] at h
    split at h <;> cases h
    exact .refl _
  | cons name rest ih =>
    rw [makeAll] at h
    split at h
    · exact ih h
    · cases h
    · split at h
      · cases h
      · obtain ⟨hhere, hrefusal⟩ := ih h
        exact ⟨hhere, hrefusal⟩

theorem sameGround_makeDirectories (h : fs.makeDirectories path = .ok fs') :
    fs.SameGround fs' := by
  rw [makeDirectories] at h
  split at h
  · cases h
    exact .refl _
  · exact sameGround_makeAll h

theorem sameGround_removeFile (h : fs.removeFile path = .ok fs') : fs.SameGround fs' := by
  obtain ⟨found, -, h⟩ := Except.bind_eq_ok h
  split at h
  · cases h
  · cases h
  · obtain ⟨-, -, h⟩ := Except.bind_eq_ok h
    cases h
    exact ⟨rfl, rfl⟩

theorem sameGround_removeTree (h : fs.removeTree path = .ok fs') : fs.SameGround fs' := by
  obtain ⟨found, -, h⟩ := Except.bind_eq_ok h
  split at h
  · cases h
  · obtain ⟨-, -, h⟩ := Except.bind_eq_ok h
    cases h
    exact ⟨rfl, rfl⟩
  · cases h

theorem sameGround_writeEntry (h : fs.writeEntry path e = .ok fs') : fs.SameGround fs' := by
  obtain ⟨found, -, rfl⟩ := writeEntry_eq_ok h
  exact ⟨rfl, rfl⟩

/-- What may be done or left. -/
theorem sameGround_getD {r : Except FileFault Files} (h : ∀ fs', r = .ok fs' → fs.SameGround fs') :
    fs.SameGround (r.toOption.getD fs) := by
  cases r with
  | ok fs' => exact h fs' rfl
  | error fault => exact .refl fs

/-- What is done with the right to do everything. -/
theorem sameGround_privileged {edit : Files → Except FileFault Files}
    (h : ∀ fs fs', edit fs = .ok fs' → fs.SameGround fs') (fs : Files) :
    fs.SameGround (fs.privileged edit) := by
  rw [privileged]
  split
  · next hdone => exact ⟨(h _ _ hdone).here_eq, rfl⟩
  · exact .refl fs

theorem sameGround_apply (fs : Files) (edit : Edit) : fs.SameGround (edit.apply fs) := by
  unfold Edit.apply
  split
  · exact sameGround_privileged (fun _ _ => sameGround_makeDirectories) fs
  · exact (sameGround_privileged (fun _ _ => sameGround_makeDirectories) fs).trans
      (sameGround_privileged (fun _ _ => sameGround_writeEntry) _)
  · refine sameGround_privileged (fun fs₁ fs₂ hdone => ?_) fs
    split at hdone
    · next hremoved =>
      cases hdone
      exact sameGround_removeFile hremoved
    · exact sameGround_removeTree hdone

/-! ## Removing an entry of a directory -/

theorem at?_drop_self (h : place ≠ []) : (fs.drop place).at? place = none := by
  rw [at?, if_neg (by simpa using h), drop, List.find?_eq_none.mpr]
  · rfl
  · intro old hold
    have hnot := (List.mem_filter.mp hold).2
    simp only [beq_iff_eq]
    rintro rfl
    rw [List.isPrefixOf_iff_prefix.mpr List.prefix_rfl] at hnot
    cases hnot

theorem removeFile_of_none (hplace : fs.place path = .ok place) (h : fs.at? place = none) :
    fs.removeFile path = .error .notFound := by
  unfold removeFile
  rw [hplace]
  simp only [bind, Except.bind, h]

/-- A file is removed unless that is refused. -/
theorem removeFile_of_some {e : Entry} (hplace : fs.place path = .ok place)
    (h : fs.at? place = some e) (hfile : e ≠ .directory) :
    fs.removeFile path = (fs.allow .remove place).map fun _ => fs.drop place := by
  have hremove : fs.removeFile path =
      (do fs.allow .remove place; return fs.drop place : Except FileFault Files) := by
    cases e with
    | directory => exact absurd rfl hfile
    | text s | bytes bs | ledger l =>
      unfold removeFile
      rw [hplace]
      simp only [bind, Except.bind, h]
  rw [hremove]
  cases fs.allow .remove place <;> rfl

theorem allow_of_none {access : Access} (h : fs.refusal access place = none) :
    fs.allow access place = .ok () := by
  rw [allow, h]

/-- What stands at a place cannot be removed as a file: it is a directory, or its removal is
refused. -/
def sticksAt (fs : Files) (place : Place) : Bool :=
  fs.isDirectoryAt place || (fs.refusal .remove place).isSome

theorem sticksAt_eq_false_iff : fs.sticksAt place = false ↔
    fs.isDirectoryAt place = false ∧ fs.refusal .remove place = none := by
  simp [sticksAt]

/-- **What sticks is not removed.** -/
theorem removeFile_of_sticks (hplace : fs.place path = .ok place)
    (h : fs.sticksAt place = true) : ∃ fault, fs.removeFile path = .error fault := by
  cases hat : fs.at? place with
  | none => exact ⟨_, removeFile_of_none hplace hat⟩
  | some e =>
    by_cases hdirectory : e = .directory
    · subst hdirectory
      refine ⟨.isDirectory, ?_⟩
      unfold removeFile
      rw [hplace]
      simp only [bind, Except.bind, hat]
    · have hplain : fs.isDirectoryAt place = false := by
        rw [Bool.eq_false_iff, Ne, isDirectoryAt_iff, hat]
        exact fun heq => hdirectory (Option.some.inj heq)
      rw [sticksAt, hplain, Bool.false_or] at h
      obtain ⟨fault, hfault⟩ := Option.isSome_iff_exists.mp h
      refine ⟨fault, ?_⟩
      rw [removeFile_of_some hplace hat hdirectory, allow, hfault]
      rfl

/-- **What a removal leaves that was tried**: nothing stands in the place of an entry that does not
stick, or its directory cannot be reached. -/
theorem at?_tried_removeFile {dir name : String} (hdir : dir ≠ "") (h : Path.IsName name.toList)
    (hloose : fs.sticksAt (fs.goal (Path.append dir name)) = false) :
    let left := (fs.removeFile (Path.append dir name)).toOption.getD fs
    left.at? (fs.goal (Path.append dir name)) = none ∨ left.isDirectory dir = false := by
  intro left
  obtain ⟨hplain, hallowed⟩ := sticksAt_eq_false_iff.mp hloose
  rw [goal_append dir h] at hplain hallowed ⊢
  cases hdirectory : fs.isDirectory dir with
  | true =>
    left
    have hplace := (place_append_eq_ok_iff hdir h).mpr ⟨hdirectory, rfl⟩
    have hroot : fs.goal dir ++ [name] ≠ [] := List.concat_ne_nil _ _
    cases hat : fs.at? (fs.goal dir ++ [name]) with
    | none =>
      simp only [left, removeFile_of_none hplace hat]
      exact hat
    | some e =>
      have hfile : e ≠ .directory := by
        rintro rfl
        rw [isDirectoryAt_iff.mpr hat] at hplain
        cases hplain
      simp only [left, removeFile_of_some hplace hat hfile, allow_of_none hallowed]
      exact at?_drop_self hroot
  | false =>
    right
    have hremove : left = fs := by
      simp only [left, removeFile]
      cases hplace : fs.place (Path.append dir name) with
      | error fault => rfl
      | ok found => simp [((place_append_eq_ok_iff hdir h).mp hplace).1] at hdirectory
    rw [hremove, hdirectory]

/-! ## A tree without what stands at one place -/

/-- The tree without what stands at one place. -/
def without (fs : Files) (place : Place) : Files :=
  { fs with entries := fs.entries.filter fun old => old.1 != place }

theorem at?_without_self (h : place ≠ []) : (fs.without place).at? place = none := by
  rw [at?, if_neg (by simpa using h), without, List.find?_eq_none.mpr]
  · rfl
  · intro old hold
    simpa using (List.mem_filter.mp hold).2

theorem at?_without_of_ne (h : q ≠ place) : (fs.without place).at? q = fs.at? q := by
  have hkept : (fun old : Place × Entry => decide ((old.1 != place) = true ∧
      (old.1 == q) = true)) = fun old => old.1 == q := by
    funext old
    by_cases hold : old.1 = q <;> simp [hold, h]
  rw [at?, at?, without, List.find?_filter, hkept]

theorem put_without (h : q ≠ place) (e : Entry) :
    (fs.without place).put q e = (fs.put q e).without place := by
  simp only [put, without, List.filter_cons, bne_iff_ne.mpr h, if_true, List.filter_filter,
    Bool.and_comm]

/-- A path leads to a file: to something that is no directory and has nothing below it. -/
structure HasFileAt (fs : Files) (path : String) (place : Place) : Prop where
  leads : fs.place path = .ok place
  stands : ∃ e, fs.at? place = some e ∧ e ≠ .directory
  leaf : ∀ old ∈ fs.entries, place <+: old.1 → old.1 = place

namespace HasFileAt

theorem ne_of_directory (h : fs.HasFileAt path place) (hq : fs.at? q = some .directory) :
    q ≠ place := by
  rintro rfl
  obtain ⟨e, he, hfile⟩ := h.stands
  exact hfile (Option.some.inj (he.symm.trans hq))

/-- The root is a directory, so a file stands elsewhere. -/
theorem ne_root (h : fs.HasFileAt path place) : place ≠ [] := (h.ne_of_directory rfl).symm

theorem place_without (h : fs.HasFileAt path place) :
    (fs.without place).place path = .ok place :=
  place_eq_of_directories h.leads rfl fun _ hq =>
    (at?_without_of_ne (h.ne_of_directory hq)).trans hq

/-- Without the file nothing stands where the path leads. -/
theorem exists?_without (h : fs.HasFileAt path place) :
    (fs.without place).exists? path = false := by
  unfold exists? entry?
  rw [h.place_without]
  simp only [at?_without_self h.ne_root, Option.isSome_none]

/-- **To remove the file is to leave the tree without it**, unless that is refused. -/
theorem removeFile_eq (h : fs.HasFileAt path place) (hallowed : fs.refusal .remove place = none) :
    fs.removeFile path = .ok (fs.without place) := by
  have hdrop : fs.drop place = fs.without place := by
    rw [drop, without]
    congr 1
    refine List.filter_congr fun old hold => ?_
    rw [bne, Bool.not_inj_iff, Bool.eq_iff_iff, List.isPrefixOf_iff_prefix, beq_iff_eq]
    exact ⟨h.leaf old hold, fun heq => heq ▸ List.prefix_rfl⟩
  obtain ⟨e, he, hfile⟩ := h.stands
  rw [removeFile_of_some h.leads he hfile, allow_of_none hallowed, hdrop]
  rfl

/-- Without the file there is nothing left to remove. -/
theorem removeFile_without (h : fs.HasFileAt path place) :
    (fs.without place).removeFile path = .error .notFound :=
  removeFile_of_none h.place_without (at?_without_self h.ne_root)

end HasFileAt

/-! ## Directories beside a file -/

/-- What is known of a tree once directories were made that do not lead through a place: what stands
there is what stood there, and nothing has come below it. -/
structure MadeBeside (fs fs' : Files) (place : Place) : Prop where
  at?_eq : fs'.at? place = fs.at? place
  leaf : (∀ old ∈ fs.entries, place <+: old.1 → old.1 = place) →
    ∀ old ∈ fs'.entries, place <+: old.1 → old.1 = place

theorem madeBeside_makeAll {done rest : Place} (hbeside : ¬ place <+: done ++ rest)
    (h : fs.makeAll done rest = .ok fs') : fs.MadeBeside fs' place := by
  induction rest generalizing fs done with
  | nil =>
    rw [makeAll] at h
    split at h
    · cases h
      exact ⟨rfl, id⟩
    · cases h
  | cons name rest ih =>
    have hrest : ¬ place <+: (done ++ [name]) ++ rest := by simpa using hbeside
    have hnext : ¬ place <+: done ++ [name] := fun hbelow =>
      hrest (hbelow.trans (List.prefix_append _ _))
    rw [makeAll] at h
    split at h
    · exact ih hrest h
    · cases h
    · split at h
      · cases h
      obtain ⟨hat, hleaf⟩ := ih hrest h
      refine ⟨?_, fun hfs => hleaf fun old hold hbelow => ?_⟩
      · rw [hat, at?_put_of_ne]
        rintro rfl
        exact hnext List.prefix_rfl
      · obtain rfl | hold := List.mem_cons.mp hold
        · exact absurd hbelow hnext
        · exact hfs old (List.mem_of_mem_filter hold) hbelow

theorem makeAll_without {done rest : Place} (hbeside : ¬ place <+: done ++ rest) :
    (fs.without place).makeAll done rest = (fs.makeAll done rest).map (·.without place) := by
  induction rest generalizing fs done with
  | nil =>
    have hne : done ≠ place := by
      rintro rfl
      exact hbeside (List.prefix_append _ _)
    rw [makeAll, makeAll, isDirectoryAt, isDirectoryAt, at?_without_of_ne hne]
    split <;> rfl
  | cons name rest ih =>
    have hrest : ¬ place <+: (done ++ [name]) ++ rest := by simpa using hbeside
    have hne : done ++ [name] ≠ place := by
      rintro rfl
      exact hrest (List.prefix_append _ _)
    rw [makeAll, makeAll, at?_without_of_ne hne]
    split
    · exact ih hrest
    · rfl
    · have hrefusal : (fs.without place).refusal = fs.refusal := rfl
      rw [put_without hne, hrefusal]
      split
      · rfl
      · exact ih hrest

theorem makeDirectories_eq :
    fs.makeDirectories path = if path.isEmpty then .ok fs else fs.makeAll [] (fs.goal path) := by
  have hwalk : (fun (reached : Place) (s : Path.Step) => match s with
      | .here => reached
      | .up => reached.dropLast
      | .into name => reached ++ [String.ofList name]) = walk := by
    funext reached s
    cases s <;> rfl
  exact congrArg (fun step => if path.isEmpty then .ok fs else fs.makeAll []
    ((Path.ofString path).steps.foldl step (if (Path.ofString path).absolute then [] else fs.here)))
    hwalk

theorem madeBeside_makeDirectories (hbeside : ¬ place <+: fs.goal path)
    (h : fs.makeDirectories path = .ok fs') : fs.MadeBeside fs' place := by
  rw [makeDirectories_eq] at h
  split at h
  · cases h
    exact ⟨rfl, id⟩
  · exact madeBeside_makeAll hbeside h

/-- **Making directories does not depend on a file beside them.** -/
theorem makeDirectories_without (hbeside : ¬ place <+: fs.goal path) :
    (fs.without place).makeDirectories path = (fs.makeDirectories path).map (·.without place) := by
  rw [makeDirectories_eq, makeDirectories_eq]
  split
  · rfl
  · exact makeAll_without hbeside

/-- A path leads where it has led when directories were made. -/
theorem place_makeDirectories {dir : String} (h : fs.place path = .ok place)
    (hmade : fs.makeDirectories dir = .ok fs') : fs'.place path = .ok place := by
  refine place_eq_of_directories h (sameGround_makeDirectories hmade).here_eq fun q hq => ?_
  have hspared := spares_makeDirectories hmade q
  rw [hq] at hspared
  generalize fs'.at? q = after at hspared
  cases hspared
  rfl

/-- A file stays where it is when directories are made beside it. -/
theorem HasFileAt.makeDirectories {dir : String} (h : fs.HasFileAt path place)
    (hbeside : ¬ place <+: fs.goal dir) (hmade : fs.makeDirectories dir = .ok fs') :
    fs'.HasFileAt path place := by
  have hnew := madeBeside_makeDirectories hbeside hmade
  exact ⟨place_makeDirectories h.leads hmade, hnew.at?_eq ▸ h.stands, hnew.leaf h.leaf⟩

end Files

end HeuristicEvolution
