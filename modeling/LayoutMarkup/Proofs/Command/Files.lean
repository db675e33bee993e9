import Mathlib.Data.List.Basic
import LayoutMarkup.Command.FileTree

/-! Files in a directory. A path that never steps upwards leads to one place, whatever is there; a file
that is written into a directory is read back there, and no other file changes by it. -/

namespace LayoutMarkup.Command

theorem slashPieces_ne_nil (chars : List Char) : slashPieces chars ≠ [] := by
  cases chars with
  | nil => simp [slashPieces]
  | cons c chars =>
    unfold slashPieces
    split
    · simp
    · split <;> simp

theorem slashPieces_append (first rest : List Char) :
    slashPieces (first ++ '/' :: rest) = slashPieces first ++ slashPieces rest := by
  induction first with
  | nil => simp [slashPieces]
  | cons c first ih =>
    simp only [List.cons_append, slashPieces, ih]
    split
    · rfl
    · cases pieces : slashPieces first with
      | nil => exact absurd pieces (slashPieces_ne_nil first)
      | cons piece pieces => rfl

theorem slash_not_mem_of_mem_slashPieces (chars : List Char) :
    ∀ piece ∈ slashPieces chars, '/' ∉ piece := by
  induction chars with
  | nil => simp [slashPieces]
  | cons c chars ih =>
    unfold slashPieces
    split
    · simpa using ih
    · rename_i different
      split
      · simpa using Ne.symm different
      · rename_i piece pieces found
        rw [found] at ih
        simp only [List.mem_cons, forall_eq_or_imp] at ih ⊢
        exact ⟨not_or.mpr ⟨Ne.symm different, ih.1⟩, ih.2⟩

theorem slashPieces_of_not_mem {chars : List Char} (absent : '/' ∉ chars) :
    slashPieces chars = [chars] := by
  induction chars with
  | nil => rfl
  | cons c chars ih =>
    simp only [List.mem_cons, not_or] at absent
    simp [slashPieces, Ne.symm absent.1, ih absent.2]

/-- A name that a directory can give to a file. -/
structure IsFileName (name : String) : Prop where
  names : pathNames name = [name]
  dot : name ≠ "."
  dots : name ≠ ".."
  slash : '/' ∉ name.toList

theorem isFileName_of_fileName? {path name : String} (named : fileName? path = some name) :
    IsFileName name := by
  obtain ⟨last, dots⟩ := Option.filter_eq_some_iff.mp named
  obtain ⟨member, dot⟩ := List.mem_filter.mp (List.mem_of_getLast? last)
  obtain ⟨piece, kept, rfl⟩ := List.mem_map.mp member
  obtain ⟨found, filled⟩ := List.mem_filter.mp kept
  have slash := slash_not_mem_of_mem_slashPieces _ piece found
  refine ⟨?_, of_decide_eq_true dot, of_decide_eq_true dots, by simpa using slash⟩
  simp [pathNames, slashPieces_of_not_mem slash, of_decide_eq_true filled]

theorem pathNames_joinPath (directory name : String) :
    pathNames (joinPath directory name) = pathNames directory ++ pathNames name := by
  unfold joinPath
  split
  · rename_i ends
    obtain ⟨above, shape⟩ := List.getLast?_eq_some_iff.mp (of_decide_eq_true ends)
    simp only [pathNames, String.toList_append, shape, List.append_assoc, List.singleton_append,
      slashPieces_append, ← List.map_append, ← List.filter_append]
    simp [slashPieces]
  · simp only [pathNames, String.toList_append, List.append_assoc]
    rw [show "/".toList = ['/'] from rfl, List.singleton_append, slashPieces_append]
    simp

/-- A path that starts at the working directory and never steps upwards. -/
structure Descends (path : String) : Prop where
  filled : path ≠ ""
  relative : isAbsolute path = false
  dots : ".." ∉ pathNames path

instance (path : String) : Decidable (Descends path) :=
  decidable_of_iff (path ≠ "" ∧ isAbsolute path = false ∧ ".." ∉ pathNames path)
    ⟨fun ⟨filled, relative, dots⟩ => ⟨filled, relative, dots⟩,
      fun ⟨filled, relative, dots⟩ => ⟨filled, relative, dots⟩⟩

/-- The names that lead to the place of a path, without the steps that stay where they are. -/
def stepNames (path : String) : List String := (pathNames path).filter (· ≠ ".")

theorem isAbsolute_joinPath {directory : String} (name : String) (descends : Descends directory) :
    isAbsolute (joinPath directory name) = false := by
  have filled : directory.toList ≠ [] := by simpa using descends.filled
  have same : (joinPath directory name).toList.head? = directory.toList.head? := by
    unfold joinPath
    split <;> simp only [String.toList_append, List.append_assoc, List.head?_append_of_ne_nil _ filled]
  rw [isAbsolute, same]
  exact descends.relative

theorem endsWithSlash_joinPath (directory : String) {name : String} (named : IsFileName name) :
    endsWithSlash (joinPath directory name) = false := by
  have filled : name.toList ≠ [] := by
    intro empty
    have names := named.names
    simp [pathNames, empty, slashPieces] at names
  have same : (joinPath directory name).toList.getLast? = name.toList.getLast? := by
    unfold joinPath
    split <;> simp only [String.toList_append, List.getLast?_append_of_ne_nil _ filled]
  refine decide_eq_false fun ends => named.slash ?_
  rw [same] at ends
  exact List.mem_of_getLast? ends

namespace FileTree

variable {tree later : FileTree}

theorem locateFrom_append (place : Place) (first rest : List String) :
    tree.locateFrom place (first ++ rest) =
      match tree.locateFrom place first with
      | .error error => .error error
      | .ok place => tree.locateFrom place rest := by
  induction first generalizing place with
  | nil => rfl
  | cons name names ih =>
    simp only [List.cons_append, locateFrom]
    cases tree.enter place name with
    | error error => rfl
    | ok next => exact ih next

theorem locateFrom_of_descending {above names : List String} {place : Place}
    (dots : ".." ∉ names) (found : tree.locateFrom (.inside above) names = .ok place) :
    place = .inside (above ++ names.filter (· ≠ ".")) := by
  induction names generalizing above with
  | nil => simpa [locateFrom, eq_comm] using found
  | cons name names ih =>
    simp only [List.mem_cons, not_or] at dots
    simp only [locateFrom, enter] at found
    by_cases dot : name = "."
    · subst dot
      split at found
      · cases found
      · rename_i entered
        split at entered
        · cases entered
        · cases entered
          simpa using ih dots.2 found
    · split at found
      · cases found
      · rename_i entered
        simp only [dot, Ne.symm dots.1, if_false] at entered
        split at entered
        · cases entered
        · split at entered
          · cases entered
            simpa [dot] using ih dots.2 found
          · cases entered

theorem locateFrom_of_descends {path : String} {place : Place} (descends : Descends path)
    (found : tree.locateFrom (.inside []) (pathNames path) = .ok place) :
    place = .inside (stepNames path) :=
  locateFrom_of_descending descends.dots found

theorem locate_of_descends {path : String} {place : Place} (descends : Descends path)
    (found : tree.locate path = .ok place) : place = .inside (stepNames path) := by
  unfold locate at found
  split at found
  · cases found
  · rename_i located
    rw [start, descends.relative] at located
    split at found
    · cases found
    · cases found
      exact locateFrom_of_descends descends located

/-- What was there is still there: files stay files, and directories stay directories. -/
structure Extends (tree later : FileTree) : Prop where
  directories : ∀ names, names ∈ tree.directories → names ∈ later.directories
  files : ∀ names, (tree.file? names).isSome → (later.file? names).isSome
  apart : ∀ names, (tree.file? names).isSome → tree.isDirectory (.inside names) = false →
    later.isDirectory (.inside names) = false

namespace Extends

theorem isDirectory (more : tree.Extends later) {place : Place}
    (found : tree.isDirectory place = true) : later.isDirectory place = true := by
  cases place with
  | outside => rfl
  | inside names =>
    simp only [FileTree.isDirectory, Bool.or_eq_true, List.contains_iff_mem] at found ⊢
    exact found.imp_right (more.directories names)

theorem enter (more : tree.Extends later) {place next : Place} {name : String}
    (found : tree.enter place name = .ok next) : later.enter place name = .ok next := by
  unfold FileTree.enter at found ⊢
  cases there : tree.isDirectory place with
  | false => simp [there] at found
  | true =>
    by_cases dot : name = "."
    · simpa [there, more.isDirectory there, dot] using found
    · cases place with
      | outside => simpa [there, more.isDirectory there, dot] using found
      | inside names =>
        by_cases dots : name = ".."
        · simpa [there, more.isDirectory there, dot, dots] using found
        · simp only [there, more.isDirectory there, dot, dots, Bool.not_true, Bool.false_eq_true,
            if_false] at found ⊢
          split at found
          · rename_i reached
            rw [if_pos, found]
            rw [Bool.or_eq_true] at reached ⊢
            exact reached.imp more.isDirectory (more.files _)
          · cases found

theorem locateFrom (more : tree.Extends later) {place next : Place} {names : List String}
    (found : tree.locateFrom place names = .ok next) : later.locateFrom place names = .ok next := by
  induction names generalizing place with
  | nil => exact found
  | cons name names ih =>
    unfold FileTree.locateFrom at found ⊢
    split at found
    · cases found
    · rename_i entered
      rw [more.enter entered]
      exact ih found

theorem locate (more : tree.Extends later) {path : String} {place : Place}
    (found : tree.locate path = .ok place) : later.locate path = .ok place := by
  unfold FileTree.locate at found ⊢
  split at found
  · cases found
  · rename_i located
    rw [more.locateFrom located]
    dsimp only
    split at found
    · cases found
    · rename_i fits
      cases found
      rw [if_neg]
      intro clash
      simp only [Bool.and_eq_true, Bool.not_eq_true'] at clash fits
      refine fits ⟨clash.1, ?_⟩
      by_contra there
      exact absurd (more.isDirectory (Bool.not_eq_false _ ▸ there)) (by simp [clash.2])

/-- A file that is still the same is read as it was. -/
theorem read (more : tree.Extends later) {path : String} {content : Content}
    (same : ∀ names, tree.locate path = .ok (.inside names) → later.file? names = tree.file? names)
    (found : tree.read path = .ok content) : later.read path = .ok content := by
  unfold FileTree.read at found ⊢
  split at found
  · cases found
  · rename_i place located
    rw [more.locate located]
    cases place with
    | outside => cases found
    | inside names =>
      dsimp only at found ⊢
      split at found
      · cases found
      · rename_i file
        split at found
        · rename_i held
          cases found
          rw [more.apart names (by simp [held]) (by simpa using file), same names located, held]
          rfl
        · cases found

theorem refl (tree : FileTree) : tree.Extends tree :=
  ⟨fun _ found => found, fun _ found => found, fun _ _ apart => apart⟩

theorem trans {last : FileTree} (first : tree.Extends later) (second : later.Extends last) :
    tree.Extends last where
  directories names found := second.directories names (first.directories names found)
  files names found := second.files names (first.files names found)
  apart names file free := second.apart names (first.files names file) (first.apart names file free)

end Extends

/-- The tree with a file in the place of one that is there. -/
def put (tree : FileTree) (names : List String) (text : String) : FileTree :=
  { tree with files := (tree.files.filter fun file => file.1 ≠ names) ++ [(names, .text text)] }

theorem file?_put_self (names : List String) (text : String) :
    (tree.put names text).file? names = some (.text text) := by
  have none : (tree.files.filter fun file => file.1 ≠ names).find? (fun file => file.1 = names) =
      none := List.find?_eq_none.mpr (by simp)
  simp only [put, file?, List.find?_append, none]
  simp

theorem file?_put_of_ne {names others : List String} (text : String) (different : others ≠ names) :
    (tree.put names text).file? others = tree.file? others := by
  have first : (tree.files.filter fun file => file.1 ≠ names).find? (fun file => file.1 = others) =
      tree.files.find? fun file => file.1 = others := by
    rw [List.find?_filter]
    congr 1
    funext file
    by_cases same : file.1 = others <;> simp [same, different]
  simp only [put, file?, List.find?_append, first]
  simp [Ne.symm different]

@[simp] theorem isDirectory_put (names : List String) (text : String) (place : Place) :
    (tree.put names text).isDirectory place = tree.isDirectory place := by
  cases place <;> rfl

theorem enter_put {target above : List String} {name : String} (text : String)
    (apart : ¬ target <+: above ++ [name].filter (· ≠ ".")) :
    (tree.put target text).enter (.inside above) name = tree.enter (.inside above) name := by
  by_cases dot : name = "."
  · simp [enter, dot]
  · have different : above ++ [name] ≠ target := by
      rintro rfl
      exact apart (by simp [dot])
    simp only [enter, isDirectory_put, file?_put_of_ne text different]

/-- A path that does not lead through the place of a file leads where it did, whatever the file holds. -/
theorem locateFrom_put {target above names : List String} (text : String) (dots : ".." ∉ names)
    (apart : ¬ target <+: above ++ names.filter (· ≠ ".")) :
    (tree.put target text).locateFrom (.inside above) names =
      tree.locateFrom (.inside above) names := by
  induction names generalizing above with
  | nil => rfl
  | cons name names ih =>
    simp only [List.mem_cons, not_or] at dots
    rw [← List.singleton_append, List.filter_append, ← List.append_assoc] at apart
    have first := @enter_put tree target above name text fun within =>
      apart (within.trans (List.prefix_append _ _))
    simp only [locateFrom, first]
    cases entered : tree.enter (.inside above) name with
    | error error => rfl
    | ok place =>
      have single : ".." ∉ [name] := by simpa using dots.1
      have step : tree.locateFrom (.inside above) [name] = .ok place := by
        simp only [locateFrom, entered]
      obtain rfl := locateFrom_of_descending single step
      exact ih dots.2 apart

theorem extends_put (names : List String) (text : String) : tree.Extends (tree.put names text) where
  directories _ found := found
  files others found := by
    by_cases same : others = names
    · simp [same, file?_put_self]
    · rwa [file?_put_of_ne text same]
  apart _ _ apart := apart

/-- Where a path in a directory leads, once the directory is there. -/
theorem locate_joinPath {directory name : String} (descends : Descends directory)
    (named : IsFileName name)
    (reached : tree.locateFrom (.inside []) (pathNames directory) = .ok (.inside (stepNames directory))) :
    tree.locate (joinPath directory name) =
      tree.enter (.inside (stepNames directory)) name := by
  unfold locate
  rw [start, isAbsolute_joinPath name descends, pathNames_joinPath, named.names]
  rw [locateFrom_append, if_neg Bool.false_ne_true, reached]
  simp only [locateFrom, endsWithSlash_joinPath directory named, Bool.false_and, Bool.false_eq_true,
    if_false]
  cases tree.enter (.inside (stepNames directory)) name <;> rfl

/-- What a write into a directory does. -/
theorem write_joinPath {directory name text : String} (descends : Descends directory)
    (named : IsFileName name) (wrote : tree.write (joinPath directory name) text = .ok later) :
    tree.locateFrom (.inside []) (pathNames directory) = .ok (.inside (stepNames directory)) ∧
      tree.isDirectory (.inside (stepNames directory)) = true ∧
      tree.isDirectory (.inside (stepNames directory ++ [name])) = false ∧
      later = tree.put (stepNames directory ++ [name]) text := by
  unfold write target at wrote
  rw [start, isAbsolute_joinPath name descends, pathNames_joinPath, named.names] at wrote
  simp only [List.getLast?_concat, List.dropLast_concat, Bool.false_eq_true, if_false, named.dot,
    named.dots, decide_false, Bool.or_self] at wrote
  cases reached : tree.locateFrom (.inside []) (pathNames directory) with
  | error error => simp [reached] at wrote
  | ok place =>
    obtain rfl := locateFrom_of_descends descends reached
    simp only [reached] at wrote
    cases there : tree.isDirectory (.inside (stepNames directory)) with
    | false => simp [there] at wrote
    | true =>
      simp only [there, Bool.not_true, Bool.false_eq_true, if_false] at wrote
      cases free : tree.isDirectory (.inside (stepNames directory ++ [name])) with
      | true => simp [free] at wrote
      | false =>
        simp only [free, Bool.false_eq_true, if_false, Except.ok.injEq] at wrote
        exact ⟨rfl, rfl, rfl, wrote.symm⟩

section

variable {directory name text : String} (descends : Descends directory) (named : IsFileName name)
  (wrote : tree.write (joinPath directory name) text = .ok later)

include descends named wrote

theorem read_of_write : later.read (joinPath directory name) = .ok (.text text) := by
  obtain ⟨reached, there, free, rfl⟩ := write_joinPath descends named wrote
  have more := tree.extends_put (stepNames directory ++ [name]) text
  have held := tree.file?_put_self (stepNames directory ++ [name]) text
  have free' : (tree.put (stepNames directory ++ [name]) text).isDirectory
    (.inside (stepNames directory ++ [name])) = false := free
  unfold read
  rw [locate_joinPath descends named (more.locateFrom reached)]
  simp [enter, more.isDirectory there, named.dot, named.dots, held, free']

/-- Writing a file leaves what the other names of the directory stand for. -/
theorem read_joinPath_of_write_other {other : String} (named' : IsFileName other)
    (different : other ≠ name) :
    later.read (joinPath directory other) = tree.read (joinPath directory other) := by
  obtain ⟨reached, there, free, rfl⟩ := write_joinPath descends named wrote
  have more := tree.extends_put (stepNames directory ++ [name]) text
  have same : (tree.put (stepNames directory ++ [name]) text).file? (stepNames directory ++ [other]) =
      tree.file? (stepNames directory ++ [other]) :=
    file?_put_of_ne text fun equal => different (List.singleton_inj.mp (List.append_cancel_left equal))
  unfold read
  rw [locate_joinPath descends named' (more.locateFrom reached), locate_joinPath descends named' reached]
  simp only [enter, isDirectory_put, there, named'.dot, named'.dots, same, Bool.not_true,
    Bool.false_eq_true, if_false]
  by_cases held : (tree.isDirectory (.inside (stepNames directory ++ [other])) ||
      (tree.file? (stepNames directory ++ [other])).isSome) = true
  · simp only [if_pos held, same]
  · simp only [if_neg held]

theorem read_of_write_outside {path : String} {content : Content} (descends' : Descends path)
    (outside : (stepNames path).dropLast ≠ stepNames directory)
    (found : tree.read path = .ok content) : later.read path = .ok content := by
  obtain ⟨-, -, -, rfl⟩ := write_joinPath descends named wrote
  refine (tree.extends_put _ text).read (fun names located => file?_put_of_ne text ?_) found
  intro same
  have step := Place.inside.inj (locate_of_descends descends' located)
  exact outside (by rw [← step, same, List.dropLast_concat])

/-- Writing a file into a directory leaves all that there is to read outside of it. -/
theorem read_of_write_apart {path : String} (descends' : Descends path)
    (apart : ¬ stepNames directory <+: stepNames path) : later.read path = tree.read path := by
  obtain ⟨-, -, -, rfl⟩ := write_joinPath descends named wrote
  have free : ¬ stepNames directory ++ [name] <+: stepNames path := fun within =>
    apart ((List.prefix_append _ _).trans within)
  have same := @locateFrom_put tree _ [] _ text descends'.dots free
  unfold read locate
  rw [start, descends'.relative, if_neg Bool.false_ne_true, same]
  cases located : tree.locateFrom (.inside []) (pathNames path) with
  | error error => rfl
  | ok place =>
    obtain rfl := locateFrom_of_descends descends' located
    have different : stepNames path ≠ stepNames directory ++ [name] := fun equal =>
      free (equal ▸ List.prefix_rfl)
    simp only [isDirectory_put]
    split
    · rfl
    · rename_i there
      split at there
      · cases there
      · cases there
        simp only [file?_put_of_ne text different]

end

theorem extends_makeDirectory {begin : Place} {names : List String}
    (made : tree.makeDirectory begin names = .ok later) :
    tree.Extends later ∧ later.files = tree.files := by
  unfold makeDirectory at made
  split at made
  · cases made
  · cases made
    exact ⟨.refl tree, rfl⟩
  · rename_i names' _
    split at made
    · cases made
    · rename_i free
      cases made
      refine ⟨⟨fun _ found => List.mem_append_left _ found, fun _ found => found, ?_⟩, rfl⟩
      intro others file apart
      simp only [isDirectory, Bool.or_eq_false_iff, Bool.or_eq_true, not_or] at apart free ⊢
      refine ⟨apart.1, ?_⟩
      have different : others ≠ names' := by
        rintro rfl
        exact free.2 file
      simpa [different] using apart.2

theorem extends_makeDirectoriesFrom (begin : Place) (depth : Nat) {names : List String}
    (made : tree.makeDirectoriesFrom begin depth names = .ok later) :
    tree.Extends later ∧ later.files = tree.files := by
  induction depth generalizing tree later names with
  | zero =>
    cases made
    exact ⟨.refl tree, rfl⟩
  | succ depth ih =>
    unfold makeDirectoriesFrom at made
    split at made
    · cases made
      exact ⟨.refl tree, rfl⟩
    · dsimp only at made
      split at made
      · rename_i single
        cases made
        exact extends_makeDirectory single
      · split at made
        · cases made
        · rename_i above
          obtain ⟨more, files⟩ := ih above
          split at made
          · rename_i single
            cases made
            obtain ⟨more', files'⟩ := extends_makeDirectory single
            exact ⟨more.trans more', files'.trans files⟩
          -- where a directory could not be made because it is there, the tree is as it was
          · repeat' split at made
            all_goals cases made
            exact ⟨more, files⟩
      · repeat' split at made
        all_goals cases made
        exact ⟨.refl tree, rfl⟩

/-- Making directories leaves every file as it is. -/
theorem read_of_makeDirectories {directory path : String} {content : Content}
    (made : tree.makeDirectories directory = .ok later) (found : tree.read path = .ok content) :
    later.read path = .ok content := by
  obtain ⟨more, files⟩ := extends_makeDirectoriesFrom _ _ made
  exact more.read (fun names _ => by rw [file?, file?, files]) found

end FileTree

end LayoutMarkup.Command
