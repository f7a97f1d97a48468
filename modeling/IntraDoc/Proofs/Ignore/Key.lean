import IntraDoc.Proofs.File.Writes
import IntraDoc.Proofs.Ignore.Load
import IntraDoc.Proofs.Text.Basic

/-!
# What the key of a table stands for

A key with one part stands for every file of that name. A key with several parts stands for one file
alone: the key itself or, if it is relative, what it leads to from the directory of the document,
every `..` taken back with the name before it. Such a path begins at the root, so it is the end of a
path only if it is all of it. A key of several parts with a null character stands for no file, and
resolving it fails.
-/

namespace IntraDoc

namespace FilePath

/-- A `..` is taken back with the name before it; directly below the root it is without effect. -/
inductive TakesBack : List Text → List Text → Prop where
  | name (before : List Text) {name : Text} (after : List Text) (isName : name ≠ ['.', '.']) :
      TakesBack (before ++ name :: ['.', '.'] :: after) (before ++ after)
  | root (after : List Text) : TakesBack (['.', '.'] :: after) after

/-- Taking back one `..` after the other leads from the first path to the second, which has none. -/
structure FoldsTo (path folded : FilePath) : Prop where
  root : path.root = folded.root
  steps : Relation.ReflTransGen TakesBack path.names folded.names
  done : ['.', '.'] ∉ folded.names

/-- The path of a file as the file system spells it: absolute, and every part is a name. -/
structure IsResolved (path : FilePath) : Prop where
  absolute : path.root = .single
  names : ∀ name ∈ path.names, isName name = true ∧ name ≠ ['.', '.'] ∧ '/' ∉ name

section Folding

variable {names shorter walked : List Text} {path folded : FilePath}

theorem fold_of_notMem (noDots : ['.', '.'] ∉ names) : fold walked names = walked ++ names := by
  induction names generalizing walked with
  | nil => rw [fold, List.append_nil]
  | cons name names ih =>
      simp only [List.mem_cons, not_or] at noDots
      rw [fold, if_neg (Ne.symm noDots.1), ih noDots.2, List.append_assoc, List.singleton_append]

theorem TakesBack.fold_eq (takesBack : TakesBack names shorter) :
    fold [] names = fold [] shorter := by
  cases takesBack with
  | name before after isName =>
      rw [fold_append, fold, if_neg isName, fold, if_pos rfl, List.dropLast_concat, ← fold_append]
  | root => rfl

theorem fold_eq_of_steps (steps : Relation.ReflTransGen TakesBack names shorter) :
    fold [] names = fold [] shorter := by
  induction steps with
  | refl => rfl
  | tail _ step ih => exact ih.trans step.fold_eq

theorem takesBack_fold (noDots : ['.', '.'] ∉ walked) :
    Relation.ReflTransGen TakesBack (walked ++ names) (fold walked names) ∧
      ['.', '.'] ∉ fold walked names := by
  -- What was walked holds no `..`, so the next one takes back its last name.
  induction names generalizing walked with
  | nil =>
      rw [List.append_nil, fold]
      exact ⟨.refl, noDots⟩
  | cons name names ih =>
      rw [fold]
      split
      · rename_i isDots
        subst isDots
        rcases List.eq_nil_or_concat' walked with rfl | ⟨before, last, rfl⟩
        · obtain ⟨steps, done⟩ := ih List.not_mem_nil
          exact ⟨.head (.root names) steps, done⟩
        · simp only [List.mem_append, List.mem_singleton, not_or] at noDots
          rw [List.dropLast_concat, List.append_assoc, List.singleton_append]
          obtain ⟨steps, done⟩ := ih noDots.1
          exact ⟨.head (.name before names (Ne.symm noDots.2)) steps, done⟩
      · rename_i isName
        have stillNoDots : ['.', '.'] ∉ walked ++ [name] := by simp [noDots, Ne.symm isName]
        have next := ih stillNoDots
        rwa [List.append_assoc, List.singleton_append] at next

/-- In whatever order the steps are taken, what is left is what walking the path leaves. -/
theorem foldsTo_iff : path.FoldsTo folded ↔
    path.root = folded.root ∧ fold [] path.names = folded.names := by
  constructor
  · rintro ⟨root, steps, done⟩
    exact ⟨root, by rw [fold_eq_of_steps steps, fold_of_notMem done, List.nil_append]⟩
  · rintro ⟨root, same⟩
    obtain ⟨steps, done⟩ : Relation.ReflTransGen TakesBack path.names (fold [] path.names) ∧
        ['.', '.'] ∉ fold [] path.names := takesBack_fold List.not_mem_nil
    rw [same] at steps done
    exact ⟨root, steps, done⟩

/-- Read from an absolute directory, a path that is not relative to two slashes folds to one. -/
theorem foldsTo_join_iff {directory file : FilePath} (absolute : directory.root = .single)
    (notDouble : path.root ≠ .double) (isResolved : file.IsResolved) :
    (directory.join path).FoldsTo file ↔ directory.resolve path = file := by
  have root : (directory.join path).root = .single := by
    unfold join isAbsolute
    cases kind : path.root <;> simp_all
  rw [foldsTo_iff, root, isResolved.absolute, resolve]
  rcases file with ⟨fileRoot, names⟩
  simp [isResolved.absolute.symm]

end Folding

/-- The characters of a path other than slashes and dots are those of its names. -/
theorem exists_mem_names_iff {key : Text} {char : Char} (isPlain : char ≠ '/' ∧ char ≠ '.') :
    (∃ name ∈ (parse key).names, char ∈ name) ↔ char ∈ key := by
  simp only [parse, List.mem_filter]
  constructor
  · rintro ⟨name, ⟨isPiece, -⟩, inside⟩
    exact (Text.mem_of_mem_splitOn isPiece inside).1
  · intro inKey
    have whole : Text.joinWith ['/'] (Text.splitOn '/' key) = key := Text.joinWith_splitOn key
    rw [← whole] at inKey
    rcases Text.mem_joinWith inKey with isSlash | ⟨piece, isPiece, inside⟩
    · simp [isPlain.1] at isSlash
    · refine ⟨piece, ⟨isPiece, ?_⟩, inside⟩
      rw [isName, Bool.and_eq_true, Bool.not_eq_true', List.isEmpty_eq_false_iff, decide_eq_true_eq]
      refine ⟨List.ne_nil_of_mem inside, ?_⟩
      rintro rfl
      exact isPlain.2 (List.mem_singleton.mp inside)

end FilePath

namespace IgnoreTable

open IgnoreDocument

variable {directory : FilePath} {key : Text}

/-- A key is resolved unless it has several parts and a null character. -/
theorem resolveKey_eq : resolveKey directory key =
    if 2 ≤ (FilePath.parse key).parts.length ∧ '\x00' ∈ key then
      .error (.unusableKey .nullByte)
    else .ok (meaning directory key) := by
  have isUsable : (FilePath.parse key).isUsable = true ↔ '\x00' ∉ key := by
    rw [← FilePath.exists_mem_names_iff (by decide)]
    simp [FilePath.isUsable]
  unfold resolveKey meaning
  by_cases short : (FilePath.parse key).parts.length < 2
  · simp [short, Nat.not_le.mpr short]
  · by_cases isNull : '\x00' ∈ key
    · simp [short, Nat.not_lt.mp short, isNull, isUsable]
    · simp [short, isNull, isUsable.mpr isNull]

/--
A key of several parts with a null character cannot be resolved. Any other key is the end of the
path of a file exactly if it has one part and that is the last part of the path, or if it has
several parts and the file is what the key, read from the directory, leads to. So a key of several
parts is the end of one path at most, and a key without parts is the end of none.
-/
theorem endsWith_resolveKey_iff (isResolved : directory.IsResolved)
    (notDouble : FilePath.rootOf key ≠ .double) :
    (2 ≤ (FilePath.parse key).parts.length → '\x00' ∈ key →
      resolveKey directory key = .error (.unusableKey .nullByte)) ∧
    ((FilePath.parse key).parts.length < 2 ∨ '\x00' ∉ key →
      ∃ ending, resolveKey directory key = .ok ending ∧
        (∀ file : FilePath, file.IsResolved →
          (file.endsWith ending = true ↔
            (∃ part, (FilePath.parse key).parts = [part] ∧
              file.parts.getLast? = some part) ∨
            2 ≤ (FilePath.parse key).parts.length ∧
              (directory.join (FilePath.parse key)).FoldsTo file)) ∧
        (2 ≤ (FilePath.parse key).parts.length → ∀ file other : FilePath,
          file.IsResolved → other.IsResolved → file.endsWith ending = true →
          other.endsWith ending = true → file = other) ∧
        (key = [] ∨ key = ['.'] → ∀ file : FilePath, file.endsWith ending = false)) := by
  refine ⟨fun several isNull => by rw [resolveKey_eq, if_pos ⟨several, isNull⟩], ?_⟩
  intro isPlain
  have resolved : resolveKey directory key = .ok (meaning directory key) := by
    rw [resolveKey_eq, if_neg]
    rintro ⟨several, isNull⟩
    rcases isPlain with short | notNull
    · omega
    · exact notNull isNull
  have ends : ∀ file : FilePath, file.IsResolved →
      (file.endsWith (meaning directory key) = true ↔ Applies directory key file) := by
    intro file fileResolved
    exact endsWith_meaning_iff fileResolved.absolute fun name inside =>
      (fileResolved.names name inside).2.2
  refine ⟨_, resolved, ?_, ?_, ?_⟩
  · intro file fileResolved
    rw [ends file fileResolved, Applies, FilePath.foldsTo_join_iff isResolved.absolute notDouble
      fileResolved]
  · intro several file other fileResolved otherResolved fileEnds otherEnds
    rw [ends file fileResolved, Applies] at fileEnds
    rw [ends other otherResolved, Applies] at otherEnds
    have notAlone : ∀ part, (FilePath.parse key).parts ≠ [part] := by
      intro part alone
      simp [alone] at several
    simp only [notAlone, false_and, exists_false, false_or] at fileEnds otherEnds
    exact fileEnds.2.symm.trans otherEnds.2
  · rintro (rfl | rfl) file <;> rfl

/-- A key that climbs out of the directory and back, with its one file. -/
theorem endsWith_resolveKey_iff_climbing :
    let directory : FilePath := FilePath.parse "/home/book".toList
    let file := FilePath.parse "/home/src/lib.rs".toList
    directory.IsResolved ∧ FilePath.rootOf "../src/./lib.rs".toList ≠ .double ∧
      ∃ ending, resolveKey directory "../src/./lib.rs".toList = .ok ending ∧
        file.endsWith ending = true ∧
        ∀ other : FilePath, other.IsResolved → other.endsWith ending = true → other = file := by
  intro directory file
  have isResolved : directory.IsResolved := ⟨rfl, by decide +kernel⟩
  have fileResolved : file.IsResolved := ⟨rfl, by decide +kernel⟩
  obtain ⟨-, resolves⟩ := endsWith_resolveKey_iff isResolved
    (show FilePath.rootOf "../src/./lib.rs".toList ≠ .double by decide)
  obtain ⟨ending, resolved, ends, unique, -⟩ := resolves (Or.inr (by decide))
  have fileEnds : file.endsWith ending = true := by
    apply (ends file fileResolved).mpr
    refine Or.inr ⟨by decide +kernel, ?_⟩
    apply (FilePath.foldsTo_join_iff rfl (by decide) fileResolved).mpr
    decide +kernel
  refine ⟨isResolved, by decide, ending, resolved, fileEnds, ?_⟩
  intro other otherResolved otherEnds
  exact unique (by decide +kernel) other file otherResolved fileResolved otherEnds fileEnds

/-- A key with a null character, which `..` takes back, is not resolved though it folds. -/
theorem resolveKey_nullByte :
    let directory : FilePath := FilePath.parse "/home".toList
    let file := FilePath.parse "/home/b".toList
    directory.IsResolved ∧ file.IsResolved ∧ FilePath.rootOf "a\x00/../b".toList ≠ .double ∧
      2 ≤ (FilePath.parse "a\x00/../b".toList).parts.length ∧
      (directory.join (FilePath.parse "a\x00/../b".toList)).FoldsTo file ∧
      resolveKey directory "a\x00/../b".toList = .error (.unusableKey .nullByte) := by
  intro directory file
  have fileResolved : file.IsResolved := ⟨rfl, by decide +kernel⟩
  refine ⟨⟨rfl, by decide +kernel⟩, fileResolved, by decide, by decide +kernel, ?_,
    by decide +kernel⟩
  apply (FilePath.foldsTo_join_iff rfl (by decide) fileResolved).mpr
  decide +kernel

end IgnoreTable

end IntraDoc
