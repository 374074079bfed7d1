import ClassNest.Handlers.Index
import ClassNest.Proofs.Distinct
import Mathlib.Data.List.Forall2
import Mathlib.Data.List.Nodup

/-!
# The table that a method finds

The exception tables of a class are filed under the keys of its methods, and a key is a text: a name and a descriptor
with a blank between them. Filing a table touches what is found under its own key and nothing else (`byKey?_set`), so
that after all methods a key leads to the table of the last method that has it (`Files.last`).

Each method finds its own table as long as no two of them have one key. A key can be cut at any of its blanks, and two
methods with one key are two ways to cut it (`methodKey_eq_iff`). So methods that differ in name or descriptor can
still meet (`handlerIndex_twins`), but only if a blank stands in a name and one in a descriptor
(`handlerIndex_filesEach_iff`).
-/
namespace ClassNest

/-! ## Keys -/

/-- The same text with the blank in different places: what lies between is the end of the name `n'` or the start of the
descriptor `d`. -/
def KeysOverlap (n d n' d' : String) : Prop := ∃ between, n' = n ++ " " ++ between ∧ d = between ++ " " ++ d'

theorem toList_methodKey (name descriptor : String) :
    (methodKey name descriptor).toList = name.toList ++ ' ' :: descriptor.toList := by
  simp [methodKey]

theorem KeysOverlap.methodKey_eq {n d n' d' : String} (h : KeysOverlap n d n' d') : methodKey n d = methodKey n' d' := by
  obtain ⟨between, rfl, rfl⟩ := h
  simp only [methodKey, String.append_assoc]

/-- If the longer name goes on behind the shorter one, it goes on with the blank of the other key. -/
theorem keysOverlap_of_rest {n d n' d' : String} {rest : List Char} (hname : n'.toList = n.toList ++ rest)
    (hkey : ' ' :: d.toList = rest ++ ' ' :: d'.toList) : (n = n' ∧ d = d') ∨ KeysOverlap n d n' d' := by
  cases rest with
  | nil =>
    rw [List.append_nil] at hname
    exact .inl ⟨String.toList_inj.mp hname.symm, String.toList_inj.mp (List.cons.inj hkey).2⟩
  | cons c between =>
    obtain ⟨rfl, hd⟩ := List.cons.inj hkey
    refine .inr ⟨String.ofList between, ?_, ?_⟩
    · rw [← String.toList_inj, hname]
      simp
    · rw [← String.toList_inj, hd]
      simp

theorem methodKey_eq_iff {n d n' d' : String} : methodKey n d = methodKey n' d' ↔
    (n = n' ∧ d = d') ∨ KeysOverlap n d n' d' ∨ KeysOverlap n' d' n d := by
  constructor
  · intro h
    rw [← String.toList_inj, toList_methodKey, toList_methodKey, List.append_eq_append_iff] at h
    rcases h with ⟨rest, hname, hkey⟩ | ⟨rest, hname, hkey⟩
    · rcases keysOverlap_of_rest hname hkey with heq | hover
      · exact .inl heq
      · exact .inr (.inl hover)
    · rcases keysOverlap_of_rest hname hkey with ⟨hn, hd⟩ | hover
      · exact .inl ⟨hn.symm, hd.symm⟩
      · exact .inr (.inr hover)
  · rintro (⟨rfl, rfl⟩ | hover | hover)
    · rfl
    · exact hover.methodKey_eq
    · exact hover.methodKey_eq.symm

theorem not_keysOverlap_self (n d d' : String) : ¬ KeysOverlap n d n d' := by
  rintro ⟨between, hname, _⟩
  have hlen := congrArg String.length hname
  simp only [String.length_append] at hlen
  have hblank : " ".length = 1 := rfl
  omega

theorem KeysOverlap.blanks {n d n' d' : String} (h : KeysOverlap n d n' d') :
    ' ' ∈ n'.toList ∧ ' ' ∈ d.toList := by
  obtain ⟨between, rfl, rfl⟩ := h
  simp

/-- The text of both keys can be cut so that it gives the one method or the other. -/
def Method.Overlaps (m m' : Method) : Prop := KeysOverlap m.name m.descriptor m'.name m'.descriptor

/-- Methods of different names or descriptors have different keys, unless two of them overlap. -/
theorem nodup_keys_iff {ms : List Method} (hpairs : (ms.map fun m => (m.name, m.descriptor)).Nodup) :
    (ms.map (·.key)).Nodup ↔ ∀ m ∈ ms, ∀ m' ∈ ms, ¬ m.Overlaps m' := by
  have hms : ms.Nodup := hpairs.of_map _
  rw [List.nodup_map_iff_inj_on hms]
  rw [List.nodup_map_iff_inj_on hms] at hpairs
  constructor
  · intro hkeys m hm m' hm' hover
    have heq : m = m' := hkeys m hm m' hm' hover.methodKey_eq
    rw [heq] at hover
    exact not_keysOverlap_self _ _ _ hover
  · intro hover m hm m' hm' hkey
    rcases methodKey_eq_iff.mp hkey with ⟨hname, hdesc⟩ | h | h
    · exact hpairs m hm m' hm' (Prod.ext hname hdesc)
    · exact absurd h (hover m hm m' hm')
    · exact absurd h (hover m' hm' m hm)

/-! ## Filing one table after the other -/

namespace HandlerIndex
variable {pool : Pool} {ix ix' : HandlerIndex} {ms : List Method} {m : Method}

theorem keys_set (ix : HandlerIndex) (key : String) (table : HandlerTable) :
    (ix.set key table).tables.map (·.1) = pushNew (ix.tables.map (·.1)) key := by
  unfold set
  split
  · rename_i hany
    have hmem : key ∈ ix.tables.map (·.1) := by simpa using hany
    have hkept : ∀ e : String × HandlerTable, (if e.1 == key then (key, table) else e).1 = e.1 := by
      intro e
      by_cases he : e.1 = key <;> simp [he]
    rw [pushNew_of_mem hmem, List.map_map]
    exact List.map_congr_left fun e _ => hkept e
  · rename_i hany
    have hnew : key ∉ ix.tables.map (·.1) := by simpa using hany
    rw [pushNew_of_not_mem hnew, List.map_append]
    rfl

theorem lookup_map_replace (key k : String) (table : HandlerTable) : ∀ tables : List (String × HandlerTable),
    (tables.map fun t => if t.1 == key then (key, table) else t).lookup k =
      if k = key then (tables.lookup key).map fun _ => table else tables.lookup k
  | [] => by simp
  | (name, old) :: tables => by
    have ih := lookup_map_replace key k table tables
    by_cases hn : name = key
    · subst hn
      by_cases hk : k = name
      · simp [hk]
      · have hb : (k == name) = false := by simpa using hk
        simp only [List.map_cons, BEq.rfl, if_true, List.lookup_cons, hb, ih, if_neg hk]
    · have hb : (name == key) = false := by simpa using hn
      have hb' : (key == name) = false := by simpa using Ne.symm hn
      simp only [List.map_cons, hb, Bool.false_eq_true, if_false, List.lookup_cons, ih, hb']
      by_cases hk : k = name
      · subst hk
        simp [hn]
      · have hb'' : (k == name) = false := by simpa using hk
        simp only [hb'']

theorem byKey?_set (ix : HandlerIndex) (key k : String) (table : HandlerTable) :
    (ix.set key table).byKey? k = if k = key then some table else ix.byKey? k := by
  unfold set byKey?
  split
  · rename_i hany
    obtain ⟨e, he, hek⟩ := List.any_eq_true.mp hany
    have hsome : (ix.tables.lookup key).isSome = true :=
      List.lookup_isSome_iff.mpr ⟨e, he, by simpa using (beq_iff_eq.mp hek).symm⟩
    obtain ⟨old, hold⟩ := Option.isSome_iff_exists.mp hsome
    rw [lookup_map_replace, hold]
    rfl
  · rename_i hany
    have hnone : ix.tables.lookup key = none := by
      rw [List.lookup_eq_none_iff]
      intro e he
      have hne : e.1 ≠ key := fun h => hany (List.any_eq_true.mpr ⟨e, he, beq_iff_eq.mpr h⟩)
      simpa using Ne.symm hne
    rw [List.lookup_append]
    by_cases hk : k = key
    · subst hk
      simp [hnone]
    · have hb : (k == key) = false := by simpa using hk
      simp [List.lookup_cons, hb, hk]

/-- The tables of the methods, as far as their keys tell them apart. -/
structure Files (pool : Pool) (ix : HandlerIndex) (ms : List Method) : Prop where
  /-- keys stand in the order in which they first came up -/
  keys : ix.tables.map (·.1) = (ms.map (·.key)).eraseDups
  /-- a key leads to the table of the last method that has it -/
  last : ∀ key, ix.byKey? key =
    (ms.reverse.find? (·.key == key)).bind fun m => (HandlerTable.decode pool m.catches).toOption
  decoded : ∀ m ∈ ms, ∃ table, HandlerTable.decode pool m.catches = .ok table

theorem files_empty (owner : String) : Files pool ⟨owner, []⟩ [] :=
  ⟨rfl, fun _ => rfl, nofun⟩

theorem Files.set (h : Files pool ix ms) {table : HandlerTable}
    (hm : HandlerTable.decode pool m.catches = .ok table) : Files pool (ix.set m.key table) (ms ++ [m]) := by
  refine ⟨?_, ?_, ?_⟩
  · rw [keys_set, h.keys, List.map_append, List.map_singleton, eraseDups_concat]
  · intro key
    rw [byKey?_set, List.reverse_append, List.reverse_singleton, List.singleton_append, List.find?_cons]
    by_cases hk : key = m.key
    · simp [hk, hm, Except.toOption]
    · have hb : (m.key == key) = false := by simpa using Ne.symm hk
      rw [if_neg hk, h.last, hb]
  · intro m' hm'
    rcases List.mem_append.mp hm' with hold | hnew
    · exact h.decoded m' hold
    · rw [List.mem_singleton.mp hnew]
      exact ⟨table, hm⟩

theorem Files.addMethods : ∀ {rest ms : List Method} {ix : HandlerIndex}, Files pool ix ms →
    ix.addMethods pool rest = .ok ix' → Files pool ix' (ms ++ rest)
  | [], ms, ix, h, hok => by
    cases hok
    rwa [List.append_nil]
  | m :: rest, ms, ix, h, hok => by
    rw [HandlerIndex.addMethods] at hok
    split at hok
    · rename_i table hm
      have hall := (h.set hm).addMethods hok
      rwa [List.append_assoc, List.singleton_append] at hall
    · cases hok

/-! ## Each method and its own table -/

/-- There is one table for each method, in the order of the methods, and each method finds its own. -/
structure FilesEach (pool : Pool) (ix : HandlerIndex) (ms : List Method) : Prop where
  size : ix.size = ms.length
  listed : List.Forall₂ (fun m entry => entry.1 = m.key ∧ HandlerTable.decode pool m.catches = .ok entry.2) ms ix.tables
  own : ∀ m ∈ ms, ∃ table, HandlerTable.decode pool m.catches = .ok table ∧
    ix.table? m.name m.descriptor = some table

/-- A key leads to the table of the last method that has it. -/
theorem Files.byKey?_of_last (h : Files pool ix ms) {key : String} (hlast : ms.reverse.find? (·.key == key) = some m) :
    ∃ table, HandlerTable.decode pool m.catches = .ok table ∧ ix.byKey? key = some table := by
  obtain ⟨table, htable⟩ := h.decoded m (List.mem_reverse.mp (List.mem_of_find?_eq_some hlast))
  refine ⟨table, htable, ?_⟩
  rw [h.last, hlast, Option.bind_some, htable]
  rfl

theorem find?_reverse_key (hkeys : (ms.map (·.key)).Nodup) (hm : m ∈ ms) :
    ms.reverse.find? (·.key == m.key) = some m := by
  have hsome : (ms.reverse.find? (·.key == m.key)).isSome = true :=
    List.find?_isSome.mpr ⟨m, List.mem_reverse.mpr hm, beq_self_eq_true m.key⟩
  obtain ⟨m', hm'⟩ := Option.isSome_iff_exists.mp hsome
  have hkey : m'.key = m.key := by simpa using List.find?_some hm'
  have hmem : m' ∈ ms := List.mem_reverse.mp (List.mem_of_find?_eq_some hm')
  rw [hm', List.inj_on_of_nodup_map hkeys hmem hm hkey]

theorem lookup_of_mem {tables : List (String × HandlerTable)} (hkeys : (tables.map (·.1)).Nodup)
    {entry : String × HandlerTable} (he : entry ∈ tables) : tables.lookup entry.1 = some entry.2 := by
  obtain ⟨before, after, rfl⟩ := List.append_of_mem he
  refine List.lookup_eq_some_iff.mpr ⟨before, after, rfl, fun other hother => ?_⟩
  rw [List.map_append, List.nodup_append] at hkeys
  have hne := hkeys.2.2 other.1 (List.mem_map_of_mem hother) entry.1 (by simp)
  simpa using Ne.symm hne

theorem keys_eq_iff : ix.tables.map (·.1) = ms.map (·.key) ↔
    List.Forall₂ (fun m entry => m.key = entry.1) ms ix.tables := by
  rw [eq_comm, ← List.forall₂_eq_eq_eq, List.forall₂_map_left_iff, List.forall₂_map_right_iff]

theorem Files.filesEach_iff (h : Files pool ix ms) : ix.FilesEach pool ms ↔ (ms.map (·.key)).Nodup := by
  constructor
  · intro heach
    have hsame : ix.tables.map (·.1) = ms.map (·.key) := keys_eq_iff.mpr (heach.listed.imp fun _ _ he => he.1.symm)
    rw [← hsame, h.keys]
    exact nodup_eraseDups _
  · intro hkeys
    have hsame : ix.tables.map (·.1) = ms.map (·.key) := by rw [h.keys, eraseDups_of_nodup hkeys]
    have hsize : ix.size = ms.length := by simpa [HandlerIndex.size] using congrArg List.length hsame
    have hown : ∀ m ∈ ms, ∃ table, HandlerTable.decode pool m.catches = .ok table ∧ ix.byKey? m.key = some table :=
      fun m hm => h.byKey?_of_last (find?_reverse_key hkeys hm)
    refine ⟨hsize, List.forall₂_iff_zip.mpr ⟨hsize.symm, ?_⟩, hown⟩
    -- a method and the entry at its place have one key, and a key stands in one entry only
    intro m entry hpair
    have hkey : m.key = entry.1 := (List.forall₂_iff_zip.mp (keys_eq_iff.mp hsame)).2 hpair
    obtain ⟨hm, he⟩ := List.of_mem_zip hpair
    obtain ⟨table, htable, hfound⟩ := hown m hm
    have hentry : ix.byKey? entry.1 = some entry.2 := lookup_of_mem (hsame ▸ hkeys) he
    rw [← hkey, hfound] at hentry
    cases hentry
    exact ⟨hkey.symm, htable⟩

end HandlerIndex

/-- Of a class whose methods differ in name or descriptor, keys are listed in the order of the methods, and a name and a
descriptor find the table of the last method with their key. So each method finds its own table, and there is one for
each method, just if no two methods overlap; in particular if there is no blank in any name, or none in any
descriptor. -/
theorem handlerIndex_filesEach_iff {c : ClassFile} {ix : HandlerIndex}
    (hpairs : (c.methods.map fun m => (m.name, m.descriptor)).Nodup) (hok : c.handlerIndex = .ok ix) :
    ix.tables.map (·.1) = (c.methods.map (·.key)).eraseDups ∧
    (∀ name descriptor last, c.methods.reverse.find? (·.key == methodKey name descriptor) = some last →
      ∃ table, HandlerTable.decode c.pool last.catches = .ok table ∧ ix.table? name descriptor = some table) ∧
    (ix.FilesEach c.pool c.methods ↔ ∀ m ∈ c.methods, ∀ m' ∈ c.methods, ¬ m.Overlaps m') ∧
    ((∀ m ∈ c.methods, ' ' ∉ m.name.toList) ∨ (∀ m ∈ c.methods, ' ' ∉ m.descriptor.toList) →
      ix.FilesEach c.pool c.methods) := by
  have hfiles : ix.Files c.pool c.methods := (HandlerIndex.files_empty c.name).addMethods hok
  have heach : ix.FilesEach c.pool c.methods ↔ ∀ m ∈ c.methods, ∀ m' ∈ c.methods, ¬ m.Overlaps m' :=
    hfiles.filesEach_iff.trans (nodup_keys_iff hpairs)
  refine ⟨hfiles.keys, fun _ _ _ hlast => hfiles.byKey?_of_last hlast, heach, fun hblank => heach.mpr ?_⟩
  intro m hm m' hm' hover
  obtain ⟨hname, hdescriptor⟩ := hover.blanks
  rcases hblank with hnames | hdescriptors
  · exact hnames m' hm' hname
  · exact hdescriptors m hm hdescriptor

/-- Three methods of two names, one of them with a blank. -/
def spacedMethods : ClassFile where
  name := "app/A"
  pool := ⟨[.className "java/io/IOException"]⟩
  methods := [{ name := "run", descriptor := "()V", catches := [⟨0, 8, 11, 1⟩, ⟨0, 8, 20, 0⟩] },
    { name := "run", descriptor := "(I)V" }, { name := "run (I)V", descriptor := "()V", catches := [⟨2, 4, 6, 0⟩] }]

/-- The tables of the three methods. -/
def spacedTables : HandlerIndex where
  owner := "app/A"
  tables := [("run ()V", [⟨0, 8, 11, some "java/io/IOException"⟩, ⟨0, 8, 20, none⟩]), ("run (I)V", []),
    ("run (I)V ()V", [⟨2, 4, 6, none⟩])]

theorem handlerIndex_filesEach_iff_spacedMethods :
    (spacedMethods.methods.map fun m => (m.name, m.descriptor)).Nodup ∧
    spacedMethods.handlerIndex = .ok spacedTables ∧ (∀ m ∈ spacedMethods.methods, ' ' ∉ m.descriptor.toList) ∧
    spacedTables.FilesEach spacedMethods.pool spacedMethods.methods :=
  have hpairs : (spacedMethods.methods.map fun m => (m.name, m.descriptor)).Nodup := by decide
  have hok : spacedMethods.handlerIndex = .ok spacedTables := by rfl
  have hblank : ∀ m ∈ spacedMethods.methods, ' ' ∉ m.descriptor.toList := by decide
  ⟨hpairs, hok, hblank, (handlerIndex_filesEach_iff hpairs hok).2.2.2 (.inr hblank)⟩

/-- Two methods that overlap. The first returns a class with a blank in its name, and the name of the second goes on with
what the first has for a descriptor. -/
def twinMethods : ClassFile where
  name := "app/A"
  methods := [{ name := "m", descriptor := "()Lq (I)Lb;", catches := [⟨0, 8, 11, 0⟩] },
    { name := "m ()Lq", descriptor := "(I)Lb;" }]

/-- The two methods differ in name and descriptor, but there is one table for both, and the first does not find its
own. -/
theorem handlerIndex_twins : (twinMethods.methods.map fun m => (m.name, m.descriptor)).Nodup ∧
    ∃ ix, twinMethods.handlerIndex = .ok ix ∧ ix.size < twinMethods.methods.length ∧
      ∃ m ∈ twinMethods.methods, ∃ table, HandlerTable.decode twinMethods.pool m.catches = .ok table ∧
        ix.table? m.name m.descriptor ≠ some table :=
  ⟨by decide, ⟨"app/A", [("m ()Lq (I)Lb;", [])]⟩, by rfl, by decide,
    { name := "m", descriptor := "()Lq (I)Lb;", catches := [⟨0, 8, 11, 0⟩] }, by decide, [⟨0, 8, 11, none⟩], by rfl,
    by decide⟩

end ClassNest
