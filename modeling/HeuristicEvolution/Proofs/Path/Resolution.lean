import HeuristicEvolution.Path.Basic
import Mathlib

/-!
# Where paths lead

A path in a configuration file is meant to be read from the directory of that file, and it is kept
as one path that is read from the working directory. What both have to agree on is the place where
they lead: from an absolute directory, take each step in turn, and let `..` take back the name
before it.

## Steps that lead above the start

The kept path is normal, so it is made of names only, and names cannot lead out of the directory
from which they are read. `Path.rise` counts the steps `..` of a path that find no name of the path
to take back. Each of them takes back a name of the directory when the path is walked
(`names_join`), and is lost when the path is made normal first (`names_join_normal`). The two walks
end in one place exactly if there is no such step, or the directory has no names either.

## Main definitions

* `Path.directory`: the directory of a file.
* `Path.place`: where a path leads from a directory.
* `Path.rise`: how far the steps of a path lead above its start.

## Main results

* `Path.ofString_toString_into`: a normal path is read as it was written.
* `Path.names_join`: the names of a walk from a directory.
* `Path.besideFile_leads`: where a path in a configuration file leads.
-/

namespace HeuristicEvolution

namespace Path

/-! ## Reading what was written -/

theorem splitOn_eq (sep : Char) (cs : List Char) : splitOn sep cs = cs.splitOn sep := by
  induction cs with
  | nil => rfl
  | cons c rest ih =>
    rw [splitOn, List.splitOn_cons_eq_if_modifyHead, ih]
    by_cases h : c = sep
    · simp [h]
    · cases hparts : rest.splitOn sep with
      | nil => exact absurd hparts (List.splitOn_ne_nil _ _)
      | cons part parts => simp [h]

theorem not_mem_of_mem_splitOn {sep : Char} {cs part : List Char} (h : part ∈ splitOn sep cs) :
    sep ∉ part := by
  induction cs generalizing part with
  | nil =>
    obtain rfl := List.mem_singleton.mp h
    exact List.not_mem_nil
  | cons c rest ih =>
    rw [splitOn] at h
    split at h
    · rcases List.mem_cons.mp h with rfl | h
      · exact List.not_mem_nil
      · exact ih h
    · next hc =>
      split at h
      · obtain rfl := List.mem_singleton.mp h
        simpa using Ne.symm hc
      · next first parts hsplit =>
        rcases List.mem_cons.mp h with rfl | h
        · rw [List.mem_cons, not_or]
          exact ⟨Ne.symm hc, ih (hsplit ▸ List.mem_cons_self)⟩
        · exact ih (hsplit ▸ List.mem_cons_of_mem _ h)

/-- A part that can stand between slashes and is a step into an entry of this name. -/
def IsName (name : List Char) : Prop := Step.ofPart? name = some (.into name) ∧ '/' ∉ name

theorem eq_of_ofPart?_eq_into {part name : List Char}
    (h : Step.ofPart? part = some (.into name)) : part = name := by
  unfold Step.ofPart? at h
  split at h <;> simp_all

/-- Every name of a path that was read is one. -/
theorem isName_of_mem_ofString {s : String} {name : List Char}
    (h : .into name ∈ (ofString s).steps) : IsName name := by
  have hpart : ∀ cs : List Char, .into name ∈ (splitOn '/' cs).filterMap Step.ofPart? →
      IsName name := by
    intro cs hmem
    obtain ⟨part, hpart, hstep⟩ := List.mem_filterMap.mp hmem
    obtain rfl := eq_of_ofPart?_eq_into hstep
    exact ⟨hstep, not_mem_of_mem_splitOn hpart⟩
  unfold ofString at h
  split at h
  · exact hpart _ h
  · simp only at h
    split at h
    · exact hpart _ (List.mem_of_ne_of_mem (by simp) h)
    · exact hpart _ h

/-- The steps of names that were written with slashes between them. -/
theorem filterMap_ofPart?_intercalate {names : List (List Char)} (h : ∀ n ∈ names, IsName n) :
    (splitOn '/' (List.intercalate ['/'] names)).filterMap Step.ofPart? = names.map .into := by
  rw [splitOn_eq]
  cases names with
  | nil => rfl
  | cons first rest =>
    rw [List.splitOn_intercalate '/' (fun n hn => (h n hn).2) (List.cons_ne_nil _ _),
      ← List.filterMap_eq_map]
    exact List.filterMap_congr fun n hn => (h n hn).1

/-- **A normal path is read as it was written**, unless it is relative and there is nothing to
write. -/
theorem ofString_toString_into {absolute : Bool} {names : List (List Char)}
    (h : ∀ n ∈ names, IsName n) (hne : absolute = true ∨ names ≠ []) :
    ofString (toString ⟨absolute, names.map .into⟩) = ⟨absolute, names.map .into⟩ := by
  have htext : (names.map Step.into).map Step.text = names := by
    rw [List.map_map]
    exact List.map_id _
  cases absolute with
  | true =>
    have hlist : (toString ⟨true, names.map .into⟩).toList
        = '/' :: List.intercalate ['/'] names := by
      simp only [toString, htext, if_true, String.toList_append, String.toList_ofList]
      rfl
    rw [ofString, hlist]
    simp only [filterMap_ofPart?_intercalate h]
  | false =>
    have hlist : (toString ⟨false, names.map .into⟩).toList = List.intercalate ['/'] names := by
      simp [toString, htext]
    cases names with
    | nil => simp at hne
    | cons first rest =>
      have hfirst := h first List.mem_cons_self
      have hsplit : splitOn '/' (List.intercalate ['/'] (first :: rest)) = first :: rest := by
        rw [splitOn_eq,
          List.splitOn_intercalate '/' (fun n hn => (h n hn).2) (List.cons_ne_nil _ _)]
      have hhere : (first :: rest).head? ≠ some ['.'] := by
        rintro heq
        obtain rfl := Option.some.inj heq
        exact nomatch hfirst.1
      rw [ofString, hlist]
      split
      · next cs htext =>
        -- a text that begins with a slash begins with an empty part, which is no name
        rw [htext, splitOn, if_pos rfl] at hsplit
        obtain ⟨rfl, -⟩ := List.cons.inj hsplit
        exact nomatch hfirst.1
      · have hsteps := filterMap_ofPart?_intercalate h
        rw [hsplit] at hsteps
        simp only [hsplit, if_neg hhere, hsteps]

/-! ## Walks -/

/-- How many steps up find no name to take back, when so many names have been reached. -/
def rise : Nat → List Step → Nat
  | _, [] => 0
  | depth, .here :: rest => rise depth rest
  | 0, .up :: rest => rise 0 rest + 1
  | depth + 1, .up :: rest => rise depth rest
  | depth, .into _ :: rest => rise (depth + 1) rest

/-- **A walk that starts elsewhere** goes the same way, but for the names of its start that are
taken back by steps that lead above it. The induction is on the steps, with the names that the walk
itself has reached. -/
theorem foldl_advance_append (steps : List Step) (reached base : List (List Char)) :
    steps.foldl advance (reached ++ base)
      = steps.foldl advance reached ++ base.drop (rise reached.length steps) := by
  induction steps generalizing reached base with
  | nil => simp [rise]
  | cons step rest ih =>
    rw [List.foldl_cons, List.foldl_cons]
    cases step with
    | here => exact ih reached base
    | into name => exact ih (name :: reached) base
    | up =>
      cases reached with
      | cons last earlier => exact ih earlier base
      | nil =>
        have hstart := ih [] base.tail
        rwa [List.drop_tail] at hstart

theorem names_eq (p : Path) : p.names = (p.steps.foldl advance []).reverse := rfl

theorem rise_into (depth : Nat) (names : List (List Char)) :
    rise depth (names.map .into) = 0 := by
  induction names generalizing depth with
  | nil => simp [rise]
  | cons name rest ih => exact ih (depth + 1)

/-- The names of a walk from a directory: first those of the directory, without the ones that the
walk takes back. -/
theorem names_join {d q : Path} (h : q.absolute = false) :
    (d.join q).names = d.names.take (d.names.length - rise 0 q.steps) ++ q.names := by
  have hwalk := foldl_advance_append q.steps [] (d.steps.foldl advance [])
  rw [List.nil_append, List.length_nil] at hwalk
  rw [join, if_neg (by simp [h]), names_eq, List.foldl_append, hwalk, List.reverse_append,
    List.reverse_drop, ← names_eq, ← names_eq, names_eq d, List.length_reverse]

theorem names_into (absolute : Bool) (names : List (List Char)) :
    Path.names ⟨absolute, names.map .into⟩ = names := by
  have hfold : ∀ reached,
      (names.map Step.into).foldl advance reached = names.reverse ++ reached := by
    induction names with
    | nil => simp
    | cons name rest ih => simp [advance, ih]
  rw [names_eq, hfold, List.append_nil, List.reverse_reverse]

theorem names_normal (p : Path) : p.normal.names = p.names := names_into _ _

/-- A normal path takes no name of the directory back. -/
theorem names_join_normal {d q : Path} (h : q.absolute = false) :
    (d.join q.normal).names = d.names ++ q.names := by
  have habsolute : q.normal.absolute = false := h
  rw [names_join habsolute, names_normal, normal, rise_into, Nat.sub_zero, List.take_length]

/-- The names of a path come from its steps. -/
theorem mem_names {p : Path} {name : List Char} (h : name ∈ p.names) : .into name ∈ p.steps := by
  have hfold : ∀ (steps : List Step) (reached : List (List Char)),
      name ∈ steps.foldl advance reached → name ∈ reached ∨ .into name ∈ steps := by
    intro steps
    induction steps with
    | nil => exact fun reached hmem => .inl hmem
    | cons step rest ih =>
      intro reached hmem
      rcases ih _ hmem with hreached | hrest
      · cases step with
        | here => exact .inl hreached
        | up => exact .inl (List.mem_of_mem_tail hreached)
        | into other =>
          rcases List.mem_cons.mp hreached with rfl | hreached
          · exact .inr List.mem_cons_self
          · exact .inl hreached
      · exact .inr (List.mem_cons_of_mem _ hrest)
  rw [names_eq, List.mem_reverse] at h
  exact (hfold _ _ h).resolve_left List.not_mem_nil

/-! ## Places -/

/-- The place where a path leads from a directory. -/
def place (d p : Path) : Path := (d.join p).normal

theorem place_eq_iff {d p q : Path} (hd : d.absolute = true) :
    d.place p = d.place q ↔ (d.join p).names = (d.join q).names := by
  have habsolute : ∀ r : Path, (d.join r).absolute = true := by
    intro r
    rw [join]
    split <;> assumption
  have hinto : Function.Injective Step.into := fun _ _ h => Step.into.inj h
  rw [place, place, normal, normal, habsolute, habsolute, Path.mk.injEq, eq_self, true_and,
    (List.map_injective_iff.mpr hinto).eq_iff]

/-- The directory of a file; the root and the empty path have none, and `.` stands in for it. -/
def directory (file : Path) : Path := file.parent?.getD ⟨false, [.here]⟩

theorem mem_steps_directory {file : Path} {name : List Char}
    (h : .into name ∈ file.directory.steps) : .into name ∈ file.steps := by
  rw [directory, parent?] at h
  split at h
  · simp at h
  · exact List.mem_of_mem_dropLast h

/-- A path in a configuration file as it is meant: relative to the directory of the file. -/
def meant (file p : String) : Path := (ofString file).directory.join (ofString p)

section Beside

variable {file p : String} (hp : (ofString p).absolute = false)
include hp

theorem join_meant (d : Path) :
    d.join (meant file p) = (d.join (ofString file).directory).join (ofString p) := by
  simp only [meant, join, hp, Bool.false_eq_true, if_false]
  split
  · rfl
  · simp [List.append_assoc]

theorem isName_of_mem_meant {name : List Char} (h : name ∈ (meant file p).names) : IsName name := by
  have hstep := mem_names h
  rw [meant, join, if_neg (by simp [hp])] at hstep
  rcases List.mem_append.mp hstep with hfile | hpath
  · exact isName_of_mem_ofString (mem_steps_directory hfile)
  · exact isName_of_mem_ofString hpath

theorem besideFile_eq (hblank : (Text.trim p).isEmpty = false) :
    besideFile file p =
      if !(meant file p).normal.absolute && (meant file p).normal.steps.isEmpty then "."
      else (meant file p).normal.toString := by
  rw [besideFile, if_neg (by simp [hblank, hp])]
  rfl

/-- A path that is kept leads where the normal form of the meant path leads. -/
theorem place_besideFile (hblank : (Text.trim p).isEmpty = false) (d : Path) :
    d.place (ofString (besideFile file p)) = d.place (meant file p).normal := by
  by_cases hnothing : (meant file p).absolute = false ∧ (meant file p).names = []
  · have hnormal : (meant file p).normal = ⟨false, []⟩ := by
      rw [normal, hnothing.1, hnothing.2, List.map_nil]
    have hdot : ofString "." = ⟨false, [.here]⟩ := by decide
    have hshown : besideFile file p = "." := by
      rw [besideFile_eq hp hblank, hnormal]
      rfl
    rw [hshown, hdot, hnormal]
    simp [place, join, normal, names_eq, advance]
  · have hsome : (meant file p).absolute = true ∨ (meant file p).names ≠ [] := by
      simpa [or_iff_not_imp_left] using hnothing
    rw [besideFile_eq hp hblank, if_neg ?_, normal,
      ofString_toString_into (fun n hn => isName_of_mem_meant hp hn) hsome]
    simpa [normal] using hnothing

end Beside

/-- **Where a path in a configuration file leads.** Let `meant file p` be the path that is meant,
the one relative to the directory of the file. A blank path and an absolute one are kept as they
are written. For any other path, and any working directory,

* if the directory of the file is absolute, the kept path leads to the place that is meant;
* otherwise it leads by the names of the path that is meant from the working directory itself, while
  the meant path first takes back a name of the working directory for each of its steps that lead
  above its start.

So it leads to the place that is meant exactly if that place is told by an absolute path, or no step
leads above the start, or the working directory is the root. -/
theorem besideFile_leads (file p : String) :
    (((Text.trim p).isEmpty = true ∨ (ofString p).absolute = true) → besideFile file p = p) ∧
    ((Text.trim p).isEmpty = false → (ofString p).absolute = false →
      ∀ d : Path, d.absolute = true →
        d.place (meant file p) = ((d.join (ofString file).directory).join (ofString p)).normal ∧
        ((meant file p).absolute = false →
          (d.place (ofString (besideFile file p))).names = d.names ++ (meant file p).names ∧
          (d.place (meant file p)).names =
            d.names.take (d.names.length - rise 0 (meant file p).steps) ++ (meant file p).names) ∧
        (d.place (ofString (besideFile file p)) = d.place (meant file p) ↔
          (meant file p).absolute = true ∨ rise 0 (meant file p).steps = 0 ∨ d.names = [])) := by
  refine ⟨fun hkept => ?_, fun hblank hp d hd => ?_⟩
  · rw [besideFile, if_pos (by simpa using hkept)]
  · have hplace : d.place (ofString (besideFile file p)) = d.place (meant file p).normal :=
      place_besideFile hp hblank d
    refine ⟨by rw [place, join_meant hp], fun hrelative => ?_, ?_⟩
    · rw [hplace, place, place, names_normal, names_normal]
      exact ⟨names_join_normal hrelative, names_join hrelative⟩
    · rw [hplace, place_eq_iff hd]
      cases habsolute : (meant file p).absolute with
      | true =>
        have hnormal : (meant file p).normal.absolute = true := habsolute
        simp [join, habsolute, hnormal, names_normal]
      | false =>
        rw [names_join_normal habsolute, names_join habsolute, List.append_left_inj, eq_comm,
          List.take_eq_self_iff]
        simp only [Bool.false_eq_true, false_or, ← List.length_eq_zero_iff]
        omega

/-- A path that stays inside the working directory, and a blank one. -/
theorem besideFile_leads_inside :
    let d : Path := ⟨true, [.into "srv".toList, .into "exp".toList]⟩
    d.place (ofString (besideFile "conf/run.yaml" "../w106")) =
      d.place (meant "conf/run.yaml" "../w106") ∧
    besideFile "conf/run.yaml" " " = " " := by
  intro d
  have hrelative : (ofString "../w106").absolute = false := by cbv
  have hmeant : (meant "conf/run.yaml" "../w106").steps
      = [.into "conf".toList, .up, .into "w106".toList] := by cbv
  have hinside : rise 0 (meant "conf/run.yaml" "../w106").steps = 0 := by
    rw [hmeant]
    rfl
  obtain ⟨-, -, hiff⟩ := (besideFile_leads "conf/run.yaml" "../w106").2 (by cbv) hrelative d rfl
  exact ⟨hiff.mpr (.inr (.inl hinside)), (besideFile_leads "conf/run.yaml" " ").1 (.inl (by cbv))⟩

/-- A path that leads above the directory of a file in the working directory is kept as one that
stays in it. -/
theorem besideFile_loses_climb :
    let d : Path := ⟨true, [.into "srv".toList, .into "exp".toList]⟩
    besideFile "run.yaml" "../x" = "x" ∧
      d.place (ofString "x") ≠
        ((d.join (ofString "run.yaml").directory).join (ofString "../x")).normal ∧
      d.place (ofString "../x") =
        ((d.join (ofString "run.yaml").directory).join (ofString "../x")).normal := by
  have hfile : ofString "run.yaml" = ⟨false, [.into "run.yaml".toList]⟩ := by cbv
  have hmeant : ofString "../x" = ⟨false, [.up, .into ['x']]⟩ := by cbv
  have hkept : ofString "x" = ⟨false, [.into ['x']]⟩ := by cbv
  have hnormal : (meant "run.yaml" "../x").normal = ⟨false, [.into ['x']]⟩ := by
    rw [meant, hfile, hmeant]
    decide
  have hshown : besideFile "run.yaml" "../x" = "x" := by
    rw [besideFile_eq (by rw [hmeant]) (by cbv), hnormal]
    decide
  intro d
  refine ⟨hshown, ?_, ?_⟩
  · rw [hfile, hmeant, hkept]
    decide
  · rw [hfile, hmeant]
    decide

end Path

end HeuristicEvolution
