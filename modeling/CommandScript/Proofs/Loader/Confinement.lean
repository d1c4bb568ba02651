import CommandScript.Loader.Basic
import CommandScript.Proofs.Text.Line

/-!
# A loader of files stays below its root

A path that is absolute or goes up names no module, and no file is opened for it. Every other path
that names anything stands for a file below the root, also if its last name gets the extension of
sources (`CommandScript.Loader.Files.load_confined`). A path that names nothing stands for no file
below the root: with the extension it stands for one beside it
(`CommandScript.Loader.Files.resolve?_of_nameless`).
-/

namespace CommandScript

namespace Loader

namespace FilePath

/-! ## Pieces -/

/-- A path has the pieces of its parts. -/
theorem pieces_append (front back : FilePath) :
    pieces (front ++ '/' :: back) = pieces front ++ pieces back := by
  simp only [pieces, Text.splitAt_eq_splitOn, List.splitOn_append_cons_self]

/-- A path made of pieces has these pieces. -/
theorem pieces_ofPieces {names : List (List Char)} (apart : ∀ name ∈ names, '/' ∉ name)
    (some : names ≠ []) : pieces (ofPieces names) = names := by
  rw [pieces, Text.splitAt_eq_splitOn]
  exact List.splitOn_intercalate '/' apart some

/-- A path is made of its pieces. -/
theorem ofPieces_pieces (path : FilePath) : ofPieces path.pieces = path := by
  rw [pieces, Text.splitAt_eq_splitOn]
  exact List.intercalate_splitOn '/'

/-- No piece has a separator in it. -/
theorem not_mem_of_mem_pieces {path : FilePath} {piece : List Char} (member : piece ∈ path.pieces) :
    '/' ∉ piece :=
  Text.not_mem_of_mem_splitAt member

/-- The components of a path are the pieces that name something. -/
theorem mem_components {path : FilePath} {name : List Char} :
    name ∈ path.components ↔ name ∈ path.pieces ∧ isVoid name = false := by
  rw [components, List.mem_filter, Bool.not_eq_true']

/-- A path has the components of its parts. -/
theorem components_append (front back : FilePath) :
    components (front ++ '/' :: back) = components front ++ components back := by
  rw [components, pieces_append, List.filter_append]
  rfl

/-- A path is absolute if nothing stands before its first slash. -/
theorem isAbsolute_iff (path : FilePath) :
    path.isAbsolute = true ↔ ∃ rest, rest ≠ [] ∧ path.pieces = [] :: rest := by
  rw [isAbsolute, decide_eq_true_eq]
  constructor
  · intro first
    obtain ⟨rest, rfl⟩ := List.head?_eq_some_iff.mp first
    exact ⟨pieces rest, Text.splitAt_ne_nil '/' rest, pieces_append [] rest⟩
  · rintro ⟨rest, some, split⟩
    obtain ⟨piece, others, rfl⟩ := List.exists_cons_of_ne_nil some
    have whole := path.ofPieces_pieces
    rw [split, ofPieces, List.intercalate_cons_cons] at whole
    rw [← whole]
    rfl

/-! ## Paths below a directory -/

/-- A file lies below a directory if its path is that of the directory and then at least one name,
none of which goes up. -/
structure LiesBelow (directory file : FilePath) : Prop where
  anchored : file.isAbsolute = directory.isAbsolute
  names : ∃ names, names ≠ [] ∧ (∀ name ∈ names, isParent name = false) ∧
    file.components = directory.components ++ names

/-- Below a directory, the components of a path follow those of the directory. -/
theorem components_below (directory path : FilePath) :
    (directory.below path).components = directory.components ++ path.components := by
  unfold below
  split
  · rename_i unparted
    rw [Bool.or_eq_true, decide_eq_true_eq, decide_eq_true_eq] at unparted
    rcases unparted with rfl | slash
    · rfl
    · obtain ⟨front, rfl⟩ := List.getLast?_eq_some_iff.mp slash
      rw [List.append_assoc, List.singleton_append, components_append, components_append]
      exact congrArg (· ++ components path) (List.append_nil _).symm
  · exact components_append directory path

/-- A relative path below a directory is absolute where the directory is. -/
theorem isAbsolute_below {directory path : FilePath} (relative : path.isAbsolute = false) :
    (directory.below path).isAbsolute = directory.isAbsolute := by
  unfold below
  cases directory with
  | nil => exact relative
  | cons first rest => split <;> rfl

/-- A path that neither starts at the top nor goes up, and names something, lies below. -/
theorem liesBelow_below (directory : FilePath) {path : FilePath}
    (confined : path.isConfined = true) (named : path.components ≠ []) :
    LiesBelow directory (directory.below path) := by
  rw [isConfined, Bool.and_eq_true, Bool.not_eq_true', Bool.not_eq_true',
    List.any_eq_false] at confined
  obtain ⟨relative, level⟩ := confined
  refine ⟨isAbsolute_below relative, path.components, named, fun name member => ?_,
    components_below directory path⟩
  exact Bool.not_eq_true _ ▸ level name (mem_components.mp member).1

/-! ## Other extensions -/

/-- The pieces of a path that names something: some, the last name, and pieces that name nothing. -/
theorem exists_name {path : FilePath} (named : path.components ≠ []) :
    ∃ front name voids, path.pieces = front ++ name :: voids ∧
      path.piecesToName = front ++ [name] ∧ isVoid name = false ∧
        ∀ piece ∈ voids, isVoid piece = true := by
  have whole : path.piecesToName ++ path.pieces.rtakeWhile isVoid = path.pieces :=
    List.rdropWhile_append_rtakeWhile
  have some : path.piecesToName ≠ [] := by
    intro none
    have void := List.rdropWhile_eq_nil_iff.mp none
    refine named (List.filter_eq_nil_iff.mpr fun piece member => ?_)
    rw [void piece member]
    exact Bool.false_ne_true
  have split := List.dropLast_concat_getLast some
  refine ⟨_, _, path.pieces.rtakeWhile isVoid, ?_, split.symm, ?_,
    fun piece member => List.mem_rtakeWhile_imp member⟩
  · rw [List.append_cons, split, whole]
  · exact Bool.not_eq_true _ ▸ List.rdropWhile_last_not isVoid path.pieces some

/-- The stem of a name has no other characters than the name. -/
theorem mem_of_mem_splitExtension {name : List Char} {c : Char}
    (member : c ∈ (splitExtension name).1) : c ∈ name := by
  unfold splitExtension at member
  split at member
  · exact member
  · rename_i extension stem cut
    split at member
    · exact member
    · have whole := (Text.splitOnce_eq_some.mp cut).1
      rw [← List.mem_reverse, whole]
      exact List.mem_append_right _ (List.mem_cons_of_mem _ (List.mem_reverse.mp member))

/-- With another extension only the last name changes, and what names nothing behind it is gone. -/
theorem pieces_withExtension {path : FilePath} {extension : List Char} (apart : '/' ∉ extension)
    {front : List (List Char)} {name : List Char} (split : path.piecesToName = front ++ [name])
    (level : isParent name = false) (clean : ∀ piece ∈ front ++ [name], '/' ∉ piece) :
    (path.withExtension extension).pieces =
      front ++ [(splitExtension name).1 ++ '.' :: extension] := by
  have written : path.withExtension extension =
      ofPieces (front ++ [(splitExtension name).1 ++ '.' :: extension]) := by
    rw [withExtension, split]
    simp [level]
  rw [written]
  refine pieces_ofPieces (fun piece member => ?_)
    (List.append_ne_nil_of_right_ne_nil _ (List.cons_ne_nil _ _))
  rcases List.mem_append.mp member with earlier | last
  · exact clean piece (List.mem_append_left _ earlier)
  · rw [List.mem_singleton.mp last, List.mem_append, List.mem_cons, not_or, not_or]
    refine ⟨fun stem => ?_, by decide, apart⟩
    exact clean name (List.mem_append_right _ (List.mem_singleton.mpr rfl))
      (mem_of_mem_splitExtension stem)

/-- An extension of at least two characters makes a name that names something and does not go up. -/
theorem names_of_extension (stem : List Char) {extension : List Char}
    (long : 2 ≤ extension.length) :
    isVoid (stem ++ '.' :: extension) = false ∧ isParent (stem ++ '.' :: extension) = false := by
  have size : 3 ≤ (stem ++ '.' :: extension).length := by
    rw [List.length_append, List.length_cons]
    omega
  have different {short : List Char} (few : short.length < 3) :
      stem ++ '.' :: extension ≠ short := by
    rintro rfl
    omega
  constructor
  · rw [isVoid, Bool.or_eq_false_iff]
    exact ⟨decide_eq_false (different (by decide)), decide_eq_false (different (by decide))⟩
  · exact decide_eq_false (different (by decide))

/-- The last component is the last piece that names something. -/
theorem components_of_pieces {path : FilePath} {front voids : List (List Char)} {name : List Char}
    (pieces : path.pieces = front ++ name :: voids) (naming : isVoid name = false)
    (void : ∀ piece ∈ voids, isVoid piece = true) :
    path.components = (front.filter fun piece => !isVoid piece) ++ [name] := by
  have gone : (voids.filter fun piece => !isVoid piece) = [] :=
    List.filter_eq_nil_iff.mpr fun piece member => by simp [void piece member]
  rw [components, pieces, List.filter_append, List.filter_cons, gone, naming]
  rfl

/-- A path is absolute if its first piece is empty and another one names something. -/
theorem isAbsolute_of_pieces {path : FilePath} {front voids : List (List Char)} {name : List Char}
    (pieces : path.pieces = front ++ name :: voids) (naming : isVoid name = false) :
    path.isAbsolute = decide (front.head? = some []) := by
  rw [← Bool.coe_iff_coe, isAbsolute_iff, pieces, decide_eq_true_eq]
  cases front with
  | nil =>
      refine iff_of_false ?_ (by simp)
      rintro ⟨rest, -, split⟩
      rw [(List.cons.inj split).1] at naming
      cases naming
  | cons piece front =>
      rw [List.head?_cons, Option.some_inj]
      constructor
      · rintro ⟨rest, -, split⟩
        exact (List.cons.inj split).1
      · rintro rfl
        exact ⟨front ++ name :: voids,
          List.append_ne_nil_of_right_ne_nil _ (List.cons_ne_nil _ _), rfl⟩

/-- Another extension changes the last of the names of a path, unless that goes up. -/
theorem withExtension_spec {path : FilePath} (named : path.components ≠ []) {extension : List Char}
    (apart : '/' ∉ extension) (long : 2 ≤ extension.length) :
    ∃ front name, path.components = front ++ [name] ∧
      if isParent name then path.withExtension extension = path
      else (path.withExtension extension).isAbsolute = path.isAbsolute ∧
        (path.withExtension extension).components =
          front ++ [(splitExtension name).1 ++ '.' :: extension] := by
  obtain ⟨front, name, voids, pieces, toName, naming, void⟩ := exists_name named
  refine ⟨_, name, components_of_pieces pieces naming void, ?_⟩
  cases level : isParent name with
  | true =>
      rw [if_pos rfl, withExtension, toName]
      simp [level]
  | false =>
      have clean : ∀ piece ∈ front ++ [name], '/' ∉ piece := by
        intro piece member
        have present : piece ∈ path.pieces := by
          rw [pieces, List.append_cons]
          exact List.mem_append_left _ member
        exact not_mem_of_mem_pieces present
      have changed := pieces_withExtension apart toName level clean
      have naming' := (names_of_extension (splitExtension name).1 long).1
      rw [if_neg Bool.false_ne_true, isAbsolute_of_pieces changed naming',
        isAbsolute_of_pieces pieces naming]
      exact ⟨rfl,
        components_of_pieces changed naming' fun _ member => absurd member List.not_mem_nil⟩

/-- A file below a directory stays below it with another extension. -/
theorem LiesBelow.withExtension {directory file : FilePath} (lies : LiesBelow directory file)
    {extension : List Char} (apart : '/' ∉ extension) (long : 2 ≤ extension.length) :
    LiesBelow directory (file.withExtension extension) := by
  obtain ⟨names, some, level, components⟩ := lies.names
  obtain ⟨others, last, rfl⟩ := (List.eq_nil_or_concat' names).resolve_left some
  have named : file.components ≠ [] := by
    rw [components]
    exact List.append_ne_nil_of_right_ne_nil _ some
  obtain ⟨front, name, split, changed⟩ := withExtension_spec named apart long
  rw [components, ← List.append_assoc] at split
  obtain ⟨rfl, same⟩ := List.append_inj' split rfl
  cases List.singleton_inj.mp same
  rw [level last (List.mem_append_right _ (List.mem_singleton.mpr rfl)),
    if_neg Bool.false_ne_true] at changed
  obtain ⟨anchored, changed⟩ := changed
  refine ⟨anchored.trans lies.anchored, others ++ [_], ?_, fun piece member => ?_,
    changed.trans (List.append_assoc ..)⟩
  · exact List.append_ne_nil_of_right_ne_nil _ (List.cons_ne_nil _ _)
  · rcases List.mem_append.mp member with earlier | new
    · exact level piece (List.mem_append_left _ earlier)
    · rw [List.mem_singleton.mp new]
      exact (names_of_extension _ long).2

/-- An extension changes the last component, but not how many there are. -/
theorem length_components_withExtension (path : FilePath) {extension : List Char}
    (apart : '/' ∉ extension) (long : 2 ≤ extension.length) :
    (path.withExtension extension).components.length = path.components.length := by
  by_cases named : path.components = []
  · have unnamed : path.piecesToName = [] := by
      refine List.rdropWhile_eq_nil_iff.mpr fun piece member => ?_
      by_contra naming
      have present := mem_components.mpr ⟨member, Bool.not_eq_true _ ▸ naming⟩
      rw [named] at present
      cases present
    rw [withExtension, unnamed]
    rfl
  · obtain ⟨front, name, split, changed⟩ := withExtension_spec named apart long
    split at changed
    · rw [changed]
    · rw [changed.2, split, List.length_append, List.length_append]
      rfl

/-- A path with no more names than the directory does not lie below it. -/
theorem LiesBelow.length_lt {directory file : FilePath} (lies : LiesBelow directory file) :
    directory.components.length < file.components.length := by
  obtain ⟨names, some, -, components⟩ := lies.names
  rw [components, List.length_append]
  exact Nat.lt_add_of_pos_right (List.length_pos_iff.mpr some)

end FilePath

/-! ## The loader -/

open FilePath

/-- What a path stands for that neither is absolute nor goes up. -/
theorem Files.resolve?_of_confined (files : Files) {path : FilePath}
    (confined : path.isConfined = true) :
    files.resolve? path =
      if files.tree.isFile (files.root.below path) || (files.root.below path).extension?.isSome then
        some (files.root.below path)
      else some ((files.root.below path).withExtension sourceExtension) := by
  rw [resolve?, if_pos confined]

/-- A path that names something stands for a file below the root. -/
theorem Files.resolve?_of_named (files : Files) {path : FilePath}
    (confined : path.isConfined = true) (named : path.components ≠ []) :
    ∃ file, files.resolve? path = some file ∧ LiesBelow files.root file := by
  have direct := liesBelow_below files.root confined named
  rw [files.resolve?_of_confined confined]
  split
  · exact ⟨_, rfl, direct⟩
  · exact ⟨_, rfl, direct.withExtension (by decide) (by decide)⟩

/-- A path that neither is absolute nor goes up, but names nothing, stands for no file below the
root. -/
theorem Files.resolve?_of_nameless (files : Files) {path : FilePath}
    (confined : path.isConfined = true) (nameless : path.components = []) :
    ∃ file, files.resolve? path = some file ∧ ¬ LiesBelow files.root file := by
  have size : (files.root.below path).components.length = files.root.components.length := by
    rw [components_below, nameless, List.append_nil]
  rw [files.resolve?_of_confined confined]
  split
  · exact ⟨_, rfl, fun lies => Nat.ne_of_gt lies.length_lt size⟩
  · refine ⟨_, rfl, fun lies => Nat.ne_of_gt lies.length_lt ?_⟩
    rw [length_components_withExtension _ (by decide) (by decide), size]

/-- Whether a path that names something can be loaded, and as what, depends on no file but those
below the root. -/
theorem Files.load_congr (files : Files) (tree : FileTree)
    (agree : ∀ file, LiesBelow files.root file → tree.find file = files.tree.find file)
    {path : String} (confined : isConfined path.toList = true)
    (named : components path.toList ≠ []) :
    (Files.mk tree files.root).load path = files.load path := by
  have same (file : FilePath) (lies : LiesBelow files.root file) :
      tree.isFile file = files.tree.isFile file ∧
        tree.readText file = files.tree.readText file := by
    rw [FileTree.isFile, FileTree.isFile, FileTree.readText, FileTree.readText, agree file lies]
    exact ⟨rfl, rfl⟩
  have resolved : (Files.mk tree files.root).resolve? path.toList = files.resolve? path.toList := by
    rw [Files.resolve?_of_confined _ confined, Files.resolve?_of_confined _ confined,
      (same _ (liesBelow_below files.root confined named)).1]
  obtain ⟨file, found, lies⟩ := files.resolve?_of_named confined named
  rw [load, load, resolved, found]
  dsimp only
  rw [(same file lies).2]

/-- A loader of files opens nothing for a path that is absolute or goes up. For every other path
that names something it opens a file below its root, and what it gives depends on nothing else. For
a path that names nothing it turns to a file that is not below its root. -/
theorem Files.load_confined (files : Files) (path : String) :
    (isConfined path.toList = false →
      files.resolve? path.toList = none ∧ files.load path = .error (.notFound path)) ∧
    (isConfined path.toList = true → components path.toList ≠ [] →
      (∃ file, files.resolve? path.toList = some file ∧ LiesBelow files.root file) ∧
        ∀ tree : FileTree,
          (∀ file, LiesBelow files.root file → tree.find file = files.tree.find file) →
            (Files.mk tree files.root).load path = files.load path) ∧
    (isConfined path.toList = true → components path.toList = [] →
      ∃ file, files.resolve? path.toList = some file ∧ ¬ LiesBelow files.root file) := by
  refine ⟨fun loose => ?_, fun confined named => ⟨files.resolve?_of_named confined named,
    fun tree agree => files.load_congr tree agree confined named⟩,
    fun confined nameless => files.resolve?_of_nameless confined nameless⟩
  have unresolved : files.resolve? path.toList = none := by
    rw [resolve?, if_neg (by rw [loose]; exact Bool.false_ne_true)]
  refine ⟨unresolved, ?_⟩
  rw [load, unresolved]

/-- The empty path is loaded from a file beside the root: here `root` is an empty directory, and the
only file is `root.gshell` next to it. -/
theorem Files.load_beside_root :
    ∃ files : Files, isConfined "".toList = true ∧
      (∀ place content, (place, FileNode.file content) ∈ files.tree.entries →
        ¬ LiesBelow files.root (ofPieces place)) ∧
      files.load "" = .ok [] := by
  refine ⟨⟨⟨[(["root".toList], .directory), (["root.gshell".toList], .file ⟨#[]⟩)]⟩, "root".toList⟩,
    by decide, fun place content member lies => ?_, rfl⟩
  have only : place = ["root.gshell".toList] := by
    simp only [List.mem_cons, Prod.mk.injEq, List.not_mem_nil, or_false, reduceCtorEq, and_false,
      false_or] at member
    exact member.1
  subst only
  exact absurd lies.length_lt (by decide)

end Loader

end CommandScript
