import IntraDoc.Ignore.Load
import IntraDoc.Proofs.File.Store
import Mathlib.Data.List.Forall2
import Mathlib.Data.List.Induction

/-!
# Which entries of a document count

A document lists links to keep in tables, one for all files and the others for the file that their
key means. Different keys can mean the same path, and then only the last table with such a key
counts; the tables before it are lost. This file states which tables count for a file and shows that
loading the document gives exactly these.
-/

namespace IntraDoc

section Entries

variable {κ β : Type} [DecidableEq κ]

theorem insertEntry_of_notMem {key : κ} {entries : List (κ × β)}
    (new : key ∉ entries.map Prod.fst) (value : β) :
    insertEntry key value entries = entries ++ [(key, value)] := by
  induction entries with
  | nil => rfl
  | cons first entries ih =>
      simp only [List.map_cons, List.mem_cons, not_or] at new
      rw [insertEntry, if_neg (Ne.symm new.1), ih new.2, List.cons_append]

theorem mem_keys_insertEntry {key other : κ} {value : β} {entries : List (κ × β)} :
    other ∈ (insertEntry key value entries).map Prod.fst ↔
      other = key ∨ other ∈ entries.map Prod.fst := by
  induction entries with
  | nil => simp [insertEntry]
  | cons first entries ih =>
      rw [insertEntry]
      split
      · rename_i same
        simp [same]
      · rw [List.map_cons, List.mem_cons, ih, List.map_cons, List.mem_cons]
        exact or_left_comm

theorem nodup_keys_insertEntry {key : κ} {value : β} {entries : List (κ × β)}
    (nodup : (entries.map Prod.fst).Nodup) :
    ((insertEntry key value entries).map Prod.fst).Nodup := by
  induction entries with
  | nil => simp [insertEntry]
  | cons first entries ih =>
      simp only [List.map_cons, List.nodup_cons] at nodup
      rw [insertEntry]
      split
      · rename_i same
        simpa [same] using nodup
      · rename_i different
        simp only [List.map_cons, List.nodup_cons, mem_keys_insertEntry, not_or]
        exact ⟨⟨different, nodup.1⟩, ih nodup.2⟩

/-- Under its key the new value takes the place of any other one. -/
theorem mem_insertEntry_iff {key other : κ} {value found : β} {entries : List (κ × β)}
    (nodup : (entries.map Prod.fst).Nodup) :
    (other, found) ∈ insertEntry key value entries ↔
      other = key ∧ found = value ∨ other ≠ key ∧ (other, found) ∈ entries := by
  induction entries with
  | nil => simp [insertEntry]
  | cons first entries ih =>
      rcases first with ⟨firstKey, old⟩
      simp only [List.map_cons, List.nodup_cons] at nodup
      rw [insertEntry]
      split
      · rename_i same
        subst same
        simp only [List.mem_cons, Prod.mk.injEq]
        constructor
        · rintro (isNew | inside)
          · exact Or.inl isNew
          · right
            refine ⟨?_, Or.inr inside⟩
            rintro rfl
            exact nodup.1 (List.mem_map_of_mem inside)
        · rintro (isNew | ⟨different, isOld | inside⟩)
          · exact Or.inl isNew
          · exact absurd isOld.1 different
          · exact Or.inr inside
      · rename_i different
        simp only [List.mem_cons, Prod.mk.injEq, ih nodup.2]
        constructor
        · rintro (⟨rfl, isOld⟩ | isNew | ⟨notKey, inside⟩)
          · exact Or.inr ⟨different, Or.inl ⟨rfl, isOld⟩⟩
          · exact Or.inl isNew
          · exact Or.inr ⟨notKey, Or.inr inside⟩
        · rintro (isNew | ⟨notKey, isOld | inside⟩)
          · exact Or.inr (Or.inl isNew)
          · exact Or.inl isOld
          · exact Or.inr (Or.inr ⟨notKey, inside⟩)

end Entries

namespace TargetTable

/-- The table has the target among those of the name. -/
def Lists (table : TargetTable) (name target : Text) : Prop :=
  ∃ targets, (name, targets) ∈ table ∧ target ∈ targets

/-- The table with every target once. -/
def distinct (table : TargetTable) : TargetTable :=
  table.map fun (name, targets) => (name, targets.eraseDups)

variable {table : TargetTable} {name target : Text}

theorem map_fst_distinct : table.distinct.map Prod.fst = table.map Prod.fst := by
  simp [distinct]

theorem lists_distinct : table.distinct.Lists name target ↔ table.Lists name target := by
  simp only [Lists, distinct, List.mem_map, Prod.mk.injEq, Prod.exists]
  constructor
  · rintro ⟨_, ⟨_, targets, inside, rfl, rfl⟩, isTarget⟩
    exact ⟨targets, inside, by simpa using isTarget⟩
  · rintro ⟨targets, inside, isTarget⟩
    exact ⟨_, ⟨name, targets, inside, rfl, rfl⟩, by simpa using isTarget⟩

theorem lists_eq_true_iff (nodup : (table.map Prod.fst).Nodup) :
    table.lists name target = true ↔ table.Lists name target := by
  induction table with
  | nil => simp [lists, Lists]
  | cons first others ih =>
      rcases first with ⟨firstName, targets⟩
      simp only [List.map_cons, List.nodup_cons] at nodup
      by_cases here : name = firstName
      · subst here
        have onlyHere : ∀ found, (name, found) ∉ others :=
          fun found inside => nodup.1 (List.mem_map_of_mem inside)
        simp [lists, Lists, onlyHere]
      · have elsewhere : (name == firstName) = false := beq_false_of_ne here
        have ih := ih nodup.2
        simp only [lists, Lists, List.lookup_cons, elsewhere] at ih ⊢
        simpa [here] using ih

theorem distinct_lists_iff (nodup : (table.map Prod.fst).Nodup) :
    table.distinct.lists name target = true ↔ table.Lists name target := by
  rw [← map_fst_distinct] at nodup
  rw [lists_eq_true_iff nodup, lists_distinct]

end TargetTable

/-- The tables of a document, by their keys. -/
abbrev IgnoreDocument := List (Text × TargetTable)

namespace IgnoreDocument

/-- An entry spells a table: texts for the key and the names, and lists of texts for the targets. -/
def EntrySpells (entry : Value × Value) (part : Text × TargetTable) : Prop :=
  entry.1 = .text part.1 ∧ entry.2.entries? =
    some (part.2.map fun (name, targets) => (.text name, .list (targets.map .text)))

section Reading

variable {value : Value} {entry : Value × Value}

/-- The text that a value is. -/
def textOf? : Value → Option Text
  | .text text => some text
  | _ => none

/-- The texts that the elements of a list are. -/
def targetsOf? : Value → Option (List Text)
  | .list items => items.mapM textOf?
  | _ => none

/-- The name and the targets that an entry of a table spells. -/
def linkOf? (entry : Value × Value) : Option (Text × List Text) :=
  (textOf? entry.1).bind fun name => (targetsOf? entry.2).map fun targets => (name, targets)

/-- The key and the table that an entry of a document spells. -/
def partOf? (entry : Value × Value) : Option (Text × TargetTable) :=
  (textOf? entry.1).bind fun key =>
    (entry.2.entries?.bind fun entries => entries.mapM linkOf?).map fun table => (key, table)

/-- Reading one by one what was spelled one by one gives back what was spelled. -/
theorem mapM_eq_some_iff {α β : Type} {read : α → Option β} {spell : β → α}
    (inverse : ∀ value part, read value = some part ↔ value = spell part) {values : List α}
    {parts : List β} : values.mapM read = some parts ↔ values = parts.map spell := by
  induction values generalizing parts with
  | nil => cases parts <;> simp
  | cons value values ih =>
      rw [List.mapM_cons]
      cases parts <;> simp [Option.bind_eq_some_iff, inverse, ih]

theorem textOf?_eq_some_iff {text : Text} : textOf? value = some text ↔ value = .text text := by
  cases value <;> simp [textOf?]

theorem targetsOf?_eq_some_iff {targets : List Text} :
    targetsOf? value = some targets ↔ value = .list (targets.map .text) := by
  cases value <;> simp [targetsOf?, mapM_eq_some_iff (fun _ _ => textOf?_eq_some_iff)]

theorem linkOf?_eq_some_iff {link : Text × List Text} :
    linkOf? entry = some link ↔ entry = (.text link.1, .list (link.2.map .text)) := by
  obtain ⟨name, targets⟩ := entry
  obtain ⟨shown, texts⟩ := link
  simp [linkOf?, Option.bind_eq_some_iff, textOf?_eq_some_iff, targetsOf?_eq_some_iff]

theorem partOf?_eq_some_iff {part : Text × TargetTable} :
    partOf? entry = some part ↔ EntrySpells entry part := by
  obtain ⟨key, table⟩ := part
  simp [partOf?, EntrySpells, Option.bind_eq_some_iff, textOf?_eq_some_iff,
    mapM_eq_some_iff (fun _ _ => linkOf?_eq_some_iff)]

/-- Whether entries spell a document can be computed. -/
theorem mapM_partOf?_eq_some_iff {entries : List (Value × Value)} {document : IgnoreDocument} :
    entries.mapM partOf? = some document ↔ List.Forall₂ EntrySpells entries document := by
  induction entries generalizing document with
  | nil => cases document <;> simp
  | cons entry entries ih =>
      rw [List.mapM_cons]
      cases document <;> simp [Option.bind_eq_some_iff, partOf?_eq_some_iff, ih]

end Reading

/-- No key occurs twice in the document, and no name in a table. -/
structure WellShaped (document : IgnoreDocument) : Prop where
  keys : (document.map Prod.fst).Nodup
  names : ∀ part ∈ document, (part.2.map Prod.fst).Nodup

/-- The path that a key means: a single part as it is, several seen from a directory. -/
def meaning (directory : FilePath) (key : Text) : FilePath :=
  if (FilePath.parse key).parts.length < 2 then FilePath.parse key
  else directory.resolve (FilePath.parse key)

/-- A file can be at what the key means, or there is nothing to resolve. -/
def IsUsableKey (key : Text) : Prop :=
  key = IgnoreTable.everywhereKey ∨ (FilePath.parse key).parts.length < 2 ∨
    (FilePath.parse key).isUsable = true

/-- The table of a key counts for a file: it is the last part of its path, or leads to it. -/
def Applies (directory : FilePath) (key : Text) (file : FilePath) : Prop :=
  (∃ part, (FilePath.parse key).parts = [part] ∧ file.parts.getLast? = some part) ∨
    2 ≤ (FilePath.parse key).parts.length ∧ directory.resolve (FilePath.parse key) = file

/-- No later table of the document has a key of the same meaning. -/
def Prevails (directory : FilePath) (document : IgnoreDocument) (part : Text × TargetTable) :
    Prop :=
  ∃ before after, document = before ++ part :: after ∧
    ∀ later ∈ after, later.1 ≠ IgnoreTable.everywhereKey →
      meaning directory later.1 ≠ meaning directory part.1

theorem Prevails.mem {directory : FilePath} {document : IgnoreDocument} {part : Text × TargetTable}
    (prevails : Prevails directory document part) : part ∈ document := by
  rcases prevails with ⟨before, after, rfl, -⟩
  simp

theorem prevails_concat {directory : FilePath} {document : IgnoreDocument}
    {part last : Text × TargetTable} :
    Prevails directory (document ++ [last]) part ↔
      part = last ∨ Prevails directory document part ∧
        (last.1 ≠ IgnoreTable.everywhereKey →
          meaning directory last.1 ≠ meaning directory part.1) := by
  constructor
  · rintro ⟨before, after, shape, noLater⟩
    rcases List.eq_nil_or_concat' after with rfl | ⟨others, final, rfl⟩
    · left
      exact (List.singleton_inj.mp (List.append_inj' shape rfl).2).symm
    · right
      rw [← List.cons_append, ← List.append_assoc] at shape
      rcases List.append_inj' shape rfl with ⟨rfl, same⟩
      obtain rfl := List.singleton_inj.mp same
      refine ⟨⟨before, others, rfl, ?_⟩, noLater last (by simp)⟩
      intro later isLater
      exact noLater later (List.mem_append_left _ isLater)
  · rintro (rfl | ⟨⟨before, after, rfl, noLater⟩, noLast⟩)
    · exact ⟨document, [], rfl, by simp⟩
    · refine ⟨before, after ++ [last], by simp, ?_⟩
      intro later isLater
      rcases List.mem_append.mp isLater with inAfter | isLast
      · exact noLater later inAfter
      · rw [List.mem_singleton.mp isLast]
        exact noLast

end IgnoreDocument

namespace IgnoreTable

open IgnoreDocument

section Files

variable {directory file : FilePath} {key : Text}

/-- A resolved path is the end of no other path, since it begins at the root. -/
theorem endsWith_resolve_iff (path : FilePath) (absolute : file.root = .single)
    (slashless : ∀ name ∈ file.names, '/' ∉ name) :
    file.endsWith (directory.resolve path) = true ↔ directory.resolve path = file := by
  rcases file with ⟨root, names⟩
  simp only at absolute slashless
  subst absolute
  have noRoot : ¬(['/'] :: (directory.resolve path).names <:+ names) := by
    intro isSuffix
    exact slashless ['/'] (isSuffix.mem (by simp)) (by simp)
  have parts : (directory.resolve path).parts = ['/'] :: (directory.resolve path).names := rfl
  have fileParts : FilePath.parts ⟨.single, names⟩ = ['/'] :: names := rfl
  rw [FilePath.endsWith, parts, fileParts]
  simp only [List.isEmpty_cons, Bool.not_false, Bool.true_and, List.isSuffixOf_iff_suffix,
    List.suffix_cons_iff, List.cons.injEq, true_and, noRoot, or_false]
  constructor
  · intro same
    rw [← same]
    rfl
  · intro same
    rw [same]

theorem endsWith_meaning_iff (absolute : file.root = .single)
    (slashless : ∀ name ∈ file.names, '/' ∉ name) :
    file.endsWith (meaning directory key) = true ↔ Applies directory key file := by
  unfold meaning Applies
  split
  · rename_i short
    rcases parts : (FilePath.parse key).parts with _ | ⟨part, _ | ⟨next, others⟩⟩
    · simp [FilePath.endsWith, parts]
    · simp [FilePath.endsWith, parts, List.singleton_suffix_iff_getLast?_eq_some]
    · simp only [parts, List.length_cons] at short
      omega
  · rename_i long
    rw [endsWith_resolve_iff _ absolute slashless]
    have several : 2 ≤ (FilePath.parse key).parts.length := by omega
    constructor
    · intro same
      exact Or.inr ⟨several, same⟩
    · rintro (⟨part, alone, -⟩ | ⟨-, same⟩)
      · simp [alone] at several
      · exact same

end Files

section Sections

variable {directory : FilePath} {entry : Value × Value} {part : Text × TargetTable}

theorem shown_text (text : Text) : shown (.text text) = .ok text := by
  simp [shown, Value.display?, Value.isShowable, Value.display]

theorem mapM_shown_text (texts : List Text) : (texts.map Value.text).mapM shown = .ok texts := by
  induction texts with
  | nil => rfl
  | cons first others ih =>
      rw [List.map_cons, List.mapM_cons, shown_text, ih]
      rfl

theorem linksOf_text (key name : Text) (targets : List Text) (entries : List (Value × Value))
    (table : TargetTable) :
    linksOf key ((.text name, .list (targets.map .text)) :: entries) table =
      linksOf key entries (insertEntry name targets.eraseDups table) := by
  rw [linksOf, mapM_shown_text, shown_text]
  rfl

/-- A table of texts is taken over as it is, except that targets are listed once. -/
theorem linksOf_spelled (key : Text) {links table : TargetTable}
    (nodup : ((table ++ links).map Prod.fst).Nodup) :
    linksOf key (links.map fun (name, targets) => (.text name, .list (targets.map .text))) table =
      .ok (table ++ links.distinct) := by
  induction links generalizing table with
  | nil => simp [linksOf, TargetTable.distinct]
  | cons first others ih =>
      rcases first with ⟨name, targets⟩
      have new : name ∉ table.map Prod.fst := by
        intro inside
        rw [List.map_append, List.nodup_append] at nodup
        exact nodup.2.2 name inside name (by simp) rfl
      have nodupNext : ((table ++ [(name, targets.eraseDups)] ++ others).map Prod.fst).Nodup := by
        simpa using nodup
      rw [List.map_cons, linksOf_text, insertEntry_of_notMem new, ih nodupNext]
      simp [TargetTable.distinct]

/-- The ignored links with one more table of a document. -/
def withSection (directory : FilePath) (table : IgnoreTable) (part : Text × TargetTable) :
    IgnoreTable :=
  if part.1 = everywhereKey then { table with everywhere := part.2.distinct }
  else { table with
    perFile := insertEntry (meaning directory part.1) part.2.distinct table.perFile }

theorem everywhere_withSection (table : IgnoreTable) :
    (withSection directory table part).everywhere =
      if part.1 = everywhereKey then part.2.distinct else table.everywhere := by
  unfold withSection
  split <;> rfl

theorem perFile_withSection (table : IgnoreTable) :
    (withSection directory table part).perFile =
      if part.1 = everywhereKey then table.perFile
      else insertEntry (meaning directory part.1) part.2.distinct table.perFile := by
  unfold withSection
  split <;> rfl

theorem addSection_text {key : Text} {payload : Value} {links : TargetTable}
    (read : sectionLinks key payload = .ok links) (table : IgnoreTable) :
    addSection directory table (.text key) payload =
      if key = everywhereKey then .ok { table with everywhere := links }
      else (resolveKey directory key).map fun path =>
        { table with perFile := insertEntry path links table.perFile } := by
  simp only [addSection, shown_text, bind, Except.bind, read, isEverywhere, decide_eq_true_eq]
  split
  · rfl
  · cases resolveKey directory key <;> rfl

theorem resolveKey_of_usable {key : Text} (foreign : key ≠ everywhereKey)
    (usable : IsUsableKey key) : resolveKey directory key = .ok (meaning directory key) := by
  unfold resolveKey meaning
  by_cases short : (FilePath.parse key).parts.length < 2
  · simp [short]
  · have isUsable := (usable.resolve_left foreign).resolve_left short
    simp [short, isUsable]

theorem resolveKey_of_unusable {key : Text} (unusable : ¬IsUsableKey key) :
    resolveKey directory key = .error (.unusableKey .nullByte) := by
  simp only [IsUsableKey, not_or] at unusable
  simp [resolveKey, unusable.2.1, unusable.2.2]

theorem sectionLinks_spelled (spells : EntrySpells entry part)
    (names : (part.2.map Prod.fst).Nodup) :
    sectionLinks part.1 entry.2 = .ok part.2.distinct := by
  simp only [sectionLinks, spells.2]
  exact linksOf_spelled part.1 (by simpa using names)

theorem addSection_of_usable (spells : EntrySpells entry part)
    (names : (part.2.map Prod.fst).Nodup) (usable : IsUsableKey part.1) (table : IgnoreTable) :
    addSection directory table entry.1 entry.2 = .ok (withSection directory table part) := by
  rw [spells.1, addSection_text (sectionLinks_spelled spells names), withSection]
  split
  · rfl
  · rename_i foreign
    rw [resolveKey_of_usable foreign usable]
    rfl

theorem addSection_of_unusable (spells : EntrySpells entry part)
    (names : (part.2.map Prod.fst).Nodup) (unusable : ¬IsUsableKey part.1) (table : IgnoreTable) :
    addSection directory table entry.1 entry.2 = .error (.unusableKey .nullByte) := by
  have foreign : part.1 ≠ everywhereKey := fun same => unusable (Or.inl same)
  rw [spells.1, addSection_text (sectionLinks_spelled spells names), if_neg foreign,
    resolveKey_of_unusable unusable]
  rfl

end Sections

section Documents

variable {directory : FilePath} {entries : List (Value × Value)} {document : IgnoreDocument}

theorem ofEntries_of_usable (spells : List.Forall₂ EntrySpells entries document)
    (names : ∀ part ∈ document, (part.2.map Prod.fst).Nodup)
    (usable : ∀ part ∈ document, IsUsableKey part.1) (table : IgnoreTable) :
    ofEntries directory entries table = .ok (document.foldl (withSection directory) table) := by
  induction spells generalizing table with
  | nil => rfl
  | cons first others ih =>
      simp only [List.mem_cons, forall_eq_or_imp] at names usable
      rw [List.foldl_cons, ← ih names.2 usable.2, ofEntries,
        addSection_of_usable first names.1 usable.1]
      rfl

/-- A key that cannot be resolved stops the loading, whatever comes before it. -/
theorem ofEntries_of_unusable (spells : List.Forall₂ EntrySpells entries document)
    (names : ∀ part ∈ document, (part.2.map Prod.fst).Nodup)
    (unusable : ∃ part ∈ document, ¬IsUsableKey part.1) (table : IgnoreTable) :
    ofEntries directory entries table = .error (.unusableKey .nullByte) := by
  induction spells generalizing table with
  | nil => simp at unusable
  | @cons entry part _ parts first others ih =>
      simp only [List.mem_cons, forall_eq_or_imp] at names
      by_cases usable : IsUsableKey part.1
      · have later : ∃ part ∈ parts, ¬IsUsableKey part.1 := by
          rcases unusable with ⟨found, inside, isUnusable⟩
          rcases List.mem_cons.mp inside with rfl | inOthers
          · exact absurd usable isUnusable
          · exact ⟨found, inOthers, isUnusable⟩
        rw [ofEntries, addSection_of_usable first names.1 usable, ← ih names.2 later]
        rfl
      · rw [ofEntries, addSection_of_unusable first names.1 usable]
        rfl

theorem everywhere_foldl_of_notMem (absent : everywhereKey ∉ document.map Prod.fst)
    (table : IgnoreTable) :
    (document.foldl (withSection directory) table).everywhere = table.everywhere := by
  induction document generalizing table with
  | nil => rfl
  | cons first others ih =>
      simp only [List.map_cons, List.mem_cons, not_or] at absent
      rw [List.foldl_cons, ih absent.2, everywhere_withSection, if_neg (Ne.symm absent.1)]

theorem everywhere_foldl_of_mem (keys : (document.map Prod.fst).Nodup) {links : TargetTable}
    (inside : (everywhereKey, links) ∈ document) (table : IgnoreTable) :
    (document.foldl (withSection directory) table).everywhere = links.distinct := by
  induction document generalizing table with
  | nil => simp at inside
  | cons first others ih =>
      simp only [List.map_cons, List.nodup_cons] at keys
      rw [List.foldl_cons]
      rcases List.mem_cons.mp inside with rfl | inOthers
      · rw [everywhere_foldl_of_notMem keys.1, everywhere_withSection, if_pos rfl]
      · exact ih keys.2 inOthers _

/-- Every path has one table at most, the last one whose key means it. -/
theorem perFile_foldl (directory : FilePath) (document : IgnoreDocument) :
    let table := document.foldl (withSection directory) {}
    (table.perFile.map Prod.fst).Nodup ∧ ∀ path links, (path, links) ∈ table.perFile ↔
      ∃ part, part.1 ≠ everywhereKey ∧ Prevails directory document part ∧
        meaning directory part.1 = path ∧ part.2.distinct = links := by
  induction document using List.reverseRecOn with
  | nil => simp [Prevails]
  | append_singleton document last ih =>
      rcases ih with ⟨nodup, ih⟩
      simp only [List.foldl_concat, prevails_concat, perFile_withSection]
      by_cases everywhere : last.1 = everywhereKey
      · rw [if_pos everywhere]
        refine ⟨nodup, ?_⟩
        intro path links
        rw [ih]
        constructor
        · rintro ⟨part, foreign, prevails, rest⟩
          exact ⟨part, foreign, Or.inr ⟨prevails, absurd everywhere⟩, rest⟩
        · rintro ⟨part, foreign, rfl | ⟨prevails, -⟩, rest⟩
          · exact absurd everywhere foreign
          · exact ⟨part, foreign, prevails, rest⟩
      · rw [if_neg everywhere]
        refine ⟨nodup_keys_insertEntry nodup, ?_⟩
        intro path links
        rw [mem_insertEntry_iff nodup, ih]
        constructor
        · rintro (⟨rfl, rfl⟩ | ⟨different, part, foreign, prevails, rfl, rfl⟩)
          · exact ⟨last, everywhere, Or.inl rfl, rfl, rfl⟩
          · exact ⟨part, foreign, Or.inr ⟨prevails, fun _ => Ne.symm different⟩, rfl, rfl⟩
        · rintro ⟨part, foreign, rfl | ⟨prevails, noLast⟩, rfl, rfl⟩
          · exact Or.inl ⟨rfl, rfl⟩
          · exact Or.inr ⟨Ne.symm (noLast everywhere), part, foreign, prevails, rfl, rfl⟩

theorem everywhere_foldl_lists_iff (wellShaped : document.WellShaped) {name target : Text} :
    (document.foldl (withSection directory) {}).everywhere.lists name target = true ↔
      ∃ links, (everywhereKey, links) ∈ document ∧ links.Lists name target := by
  constructor
  · intro listed
    by_cases present : everywhereKey ∈ document.map Prod.fst
    · obtain ⟨⟨key, links⟩, inside, same⟩ := List.mem_map.mp present
      simp only at same
      subst same
      rw [everywhere_foldl_of_mem wellShaped.keys inside,
        TargetTable.distinct_lists_iff (wellShaped.names _ inside)] at listed
      exact ⟨links, inside, listed⟩
    · rw [everywhere_foldl_of_notMem present] at listed
      simp [TargetTable.lists] at listed
  · rintro ⟨links, inside, listed⟩
    rw [everywhere_foldl_of_mem wellShaped.keys inside]
    exact (TargetTable.distinct_lists_iff (wellShaped.names _ inside)).mpr listed

theorem ignores_foldl_iff (wellShaped : document.WellShaped) {file : FilePath}
    (absolute : file.root = .single) (slashless : ∀ name ∈ file.names, '/' ∉ name)
    (name target : Text) :
    (document.foldl (withSection directory) {}).ignores file name target = true ↔
      (∃ links, (everywhereKey, links) ∈ document ∧ links.Lists name target) ∨
        ∃ part, part.1 ≠ everywhereKey ∧ Prevails directory document part ∧
          Applies directory part.1 file ∧ part.2.Lists name target := by
  rcases perFile_foldl directory document with ⟨-, entries⟩
  rw [ignores, Bool.or_eq_true, everywhere_foldl_lists_iff wellShaped]
  apply or_congr_right
  simp only [List.any_eq_true, Bool.and_eq_true, Prod.exists]
  constructor
  · rintro ⟨path, links, inside, ends, listed⟩
    rcases (entries path links).mp inside with ⟨part, foreign, prevails, rfl, rfl⟩
    have applies := (endsWith_meaning_iff absolute slashless).mp ends
    refine ⟨part.1, part.2, foreign, prevails, applies, ?_⟩
    exact (TargetTable.distinct_lists_iff (wellShaped.names _ prevails.mem)).mp listed
  · rintro ⟨key, links, foreign, prevails, applies, listed⟩
    refine ⟨meaning directory key, links.distinct, ?_, ?_, ?_⟩
    · exact (entries _ _).mpr ⟨(key, links), foreign, prevails, rfl, rfl⟩
    · exact (endsWith_meaning_iff absolute slashless).mpr applies
    · exact (TargetTable.distinct_lists_iff (wellShaped.names _ prevails.mem)).mpr listed

end Documents

theorem find?_isNone_of_readText {system : FileSystem} {path : FilePath} {text : Text}
    (isRead : readText system path = .ok text) : (system.find? path).isNone = false := by
  unfold readText at isRead
  split at isRead
  · rename_i raw rawRead
    rcases FileSystem.bytesAt?_eq_some_iff.mp (FileSystem.readText_eq_ok_iff.mp rawRead) with
      ⟨content, found, -⟩
    rw [found]
    rfl
  · simp at isRead

/--
A document is loaded unless the key of one of its tables is no path of a file. A link of a file is
then ignored if the table for all files lists it, or a table whose key applies to the file does and
no later key means the same path.
-/
theorem load_ignores_iff {system : FileSystem} {path : FilePath} {text : Text}
    {entries : List (Value × Value)} {document : IgnoreDocument}
    (isRead : readText system path = .ok text) (delivered : readDocument path text = .ok entries)
    (spells : List.Forall₂ EntrySpells entries document) (wellShaped : document.WellShaped) :
    let directory := (system.workingPath.resolve path).parent
    ((∃ part ∈ document, ¬IsUsableKey part.1) →
      load system path = .error (.unusableKey .nullByte)) ∧
    ((∀ part ∈ document, IsUsableKey part.1) → ∃ table, load system path = .ok table ∧
      ∀ file name target, file.root = .single → (∀ part ∈ file.names, '/' ∉ part) →
        (table.ignores file name target = true ↔
          (∃ links, (everywhereKey, links) ∈ document ∧ links.Lists name target) ∨
            ∃ part, part.1 ≠ everywhereKey ∧ Prevails directory document part ∧
              Applies directory part.1 file ∧ part.2.Lists name target)) := by
  intro directory
  have loaded : load system path = ofEntries directory entries {} := by
    simp only [load, find?_isNone_of_readText isRead, isRead, delivered, bind, Except.bind]
    rfl
  refine ⟨?_, ?_⟩
  · intro unusable
    rw [loaded]
    exact ofEntries_of_unusable spells wellShaped.names unusable {}
  · intro usable
    refine ⟨_, loaded.trans (ofEntries_of_usable spells wellShaped.names usable {}), ?_⟩
    intro file name target absolute slashless
    exact ignores_foldl_iff wellShaped absolute slashless name target

/-- A document with a table for all files and one for a file below its directory. -/
theorem load_ignores_iff_twoTables :
    let text := "[ignore]\nR = [\"struct.R.html\"]\n[\"src/lib.rs\"]\nA = [\"fn.a.html\"]\n".toList
    let content : FileContent := { bytes := Utf8.encode text }
    let system : FileSystem := { entries := [(["ignore.toml".toList], .file content)] }
    let path := FilePath.parse "ignore.toml".toList
    let file := FilePath.parse "/src/lib.rs".toList
    ∃ table, load system path = .ok table ∧
      table.ignores file "R".toList "struct.R.html".toList = true ∧
      table.ignores file "A".toList "fn.a.html".toList = true := by
  intro text content system path file
  have isRead : readText system path = .ok text := by decide +kernel
  let document : IgnoreDocument := [("ignore".toList, [("R".toList, ["struct.R.html".toList])]),
    ("src/lib.rs".toList, [("A".toList, ["fn.a.html".toList])])]
  have spelled : (readDocument path text).toOption.bind (List.mapM partOf?) = some document := by
    decide +kernel
  have wellShaped : document.WellShaped := ⟨by decide, by decide⟩
  have usable : ∀ part ∈ document, IsUsableKey part.1 := by
    intro part inside
    rcases List.mem_cons.mp inside with rfl | inRest
    · exact Or.inl rfl
    · rw [List.mem_singleton.mp inRest]
      exact Or.inr (Or.inr (by decide +kernel))
  obtain ⟨entries, isDocument, read⟩ := Option.bind_eq_some_iff.mp spelled
  have delivered : readDocument path text = .ok entries := by
    cases found : readDocument path text with
    | error error => simp [found, Except.toOption] at isDocument
    | ok others => simpa [found, Except.toOption] using isDocument
  obtain ⟨table, loaded, ignores⟩ := (load_ignores_iff isRead delivered
    (mapM_partOf?_eq_some_iff.mp read) wellShaped).2 usable
  have slashless : ∀ name ∈ file.names, '/' ∉ name := by decide +kernel
  refine ⟨table, loaded, ?_, ?_⟩
  · apply (ignores file _ _ rfl slashless).mpr
    exact Or.inl ⟨_, List.mem_cons_self, _, List.mem_cons_self, List.mem_cons_self⟩
  · apply (ignores file _ _ rfl slashless).mpr
    refine Or.inr ⟨("src/lib.rs".toList, [("A".toList, ["fn.a.html".toList])]), by decide,
      ⟨[("ignore".toList, [("R".toList, ["struct.R.html".toList])])], [], rfl, by simp⟩, ?_, ?_⟩
    · exact Or.inr ⟨by decide +kernel, by decide +kernel⟩
    · exact ⟨_, List.mem_cons_self, List.mem_cons_self⟩

/-- Two keys for one file, of which the first is lost with the link that it pins. -/
theorem load_losesEarlierKey :
    let text :=
      "[\"src/lib.rs\"]\nA = [\"fn.a.html\"]\n[\"src/./lib.rs\"]\nB = [\"fn.b.html\"]\n".toList
    let content : FileContent := { bytes := Utf8.encode text }
    let system : FileSystem := { entries := [(["ignore.toml".toList], .file content)] }
    let path := FilePath.parse "ignore.toml".toList
    let file := FilePath.parse "/src/lib.rs".toList
    let directory := (system.workingPath.resolve path).parent
    Applies directory "src/lib.rs".toList file ∧ Applies directory "src/./lib.rs".toList file ∧
      (load system path).toOption.map (fun table =>
        (table.ignores file "A".toList "fn.a.html".toList,
          table.ignores file "B".toList "fn.b.html".toList)) = some (false, true) := by
  refine ⟨Or.inr ⟨?_, ?_⟩, Or.inr ⟨?_, ?_⟩, ?_⟩
  all_goals decide +kernel

end IgnoreTable

end IntraDoc
