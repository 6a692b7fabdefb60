import Lhatove.Lib.Probing

/-!
# Names of constants

`love::StringMap`: the names of the values of an enumeration, from a name to its
value by a hash table with open addressing, and from a value to its name by an
array.
-/

namespace Lhatove

open List

/-- A `const char *`: the characters before the terminating zero. -/
structure CString where
  chars : List Int8
  terminated : 0 ∉ chars
  deriving DecidableEq

/-- `StringMap`: the `records` that are set and the entries of `reverse` that are not null. -/
structure StringMap where
  records : Nat → Option (CString × Int)
  reverse : Nat → Option CString

namespace StringMap

structure Entry where
  key : CString
  value : Int
  deriving DecidableEq

/-- `streq`: the end of a list is the zero at which both loops stop. -/
def streq : List Int8 → List Int8 → Bool
  | a :: as, b :: bs => if a ≠ b then false else streq as bs
  | as, bs => as.isEmpty && bs.isEmpty

/-- The loop of `djb2`; a character is made an `int` first. -/
def djb2Loop (hash : UInt32) : List Int8 → UInt32
  | [] => hash
  | c :: key => djb2Loop (((hash <<< 5) + hash) + c.toInt32.toUInt32) key

def djb2 (key : CString) : UInt32 := djb2Loop 5381 key.chars

/-- `MAX`, an `unsigned int`. -/
def MAX (SIZE : Nat) : Nat := SIZE * 2 % 2 ^ 32

/-- The values of `str_i`; the sum is an `unsigned int`. -/
def slots (SIZE : Nat) (str_hash : UInt32) : List Nat :=
  (List.range (MAX SIZE)).map fun i => (str_hash.toNat + i) % 2 ^ 32 % MAX SIZE

/-- The cast of a value to `unsigned int`. -/
def toUnsigned (value : Int) : Nat := (value % 2 ^ 32).toNat

def empty : StringMap := ⟨fun _ => none, fun _ => none⟩

section

/-! `hash` is `djb2` in the source; nothing depends on which function it is. -/

variable (SIZE : Nat) (hash : CString → UInt32)

/-- The loop of `find`. -/
def findLoop (records : Nat → Option (CString × Int)) (key : CString) : List Nat → Option Int
  | [] => none
  | str_i :: rest =>
    match records str_i with
    | none => none
    | some record =>
      if streq record.1.chars key.chars then some record.2 else findLoop records key rest

/-- `find(key, t)` -/
def find (m : StringMap) (key : CString) : Option Int :=
  findLoop m.records key (slots SIZE (hash key))

/-- `find(key, str)`, from a value to its name. -/
def findName (m : StringMap) (key : Int) : Option CString :=
  if SIZE ≤ toUnsigned key then none else m.reverse (toUnsigned key)

def add (m : StringMap) (key : CString) (value : Int) : Bool × StringMap :=
  let inserted := Probing.insert m.records (slots SIZE (hash key)) (key, value)
  let index := toUnsigned value
  if SIZE ≤ index then
    -- the record is kept, though the value is out of bounds
    (false, { m with records := inserted.2 })
  else
    (inserted.1,
      { records := inserted.2, reverse := Function.update m.reverse index (some key) })

def addAll (m : StringMap) (entries : List Entry) : StringMap :=
  entries.foldl (fun m entry => (add SIZE hash m entry.key entry.value).2) m

/-- The constructor; `num` is a number of bytes. -/
def construct (sizeofEntry : Nat) (entries : List Entry) (num : Nat) : StringMap :=
  addAll SIZE hash empty (entries.take (num / sizeofEntry))

/-- `STRINGMAP_END`: the `sizeof` of the entries is passed as an `unsigned int`. -/
def declared (sizeofEntry : Nat) (entries : List Entry) : StringMap :=
  construct SIZE hash sizeofEntry entries (entries.length * sizeofEntry % 2 ^ 32)

end

/-! ## Strings and hashes -/

theorem streq_iff (a b : List Int8) : streq a b = true ↔ a = b := by
  induction a generalizing b with
  | nil => cases b <;> simp [streq]
  | cons x a ih =>
    cases b with
    | nil => simp [streq]
    | cons y b =>
      rw [streq]
      by_cases hxy : x = y <;> simp [hxy, ih]

theorem streq_key (a b : CString) : streq a.chars b.chars = true ↔ a = b := by
  rw [streq_iff]
  constructor
  · intro h
    cases a
    cases b
    cases h
    rfl
  · rintro rfl
    rfl

theorem findLoop_eq (records : Nat → Option (CString × Int)) (key : CString) (rest : List Nat) :
    findLoop records key rest = Probing.lookup records key rest := by
  induction rest with
  | nil => rfl
  | cons str_i rest ih =>
    rw [findLoop, Probing.lookup]
    cases records str_i with
    | none => rfl
    | some record => simp only [streq_key, ih]

/-! ## The slots of a key -/

theorem mod_eq_of_lt_half {SIZE start i j : Nat} (hi : i < SIZE) (hj : j < SIZE)
    (h : (start + i) % (SIZE * 2) = (start + j) % (SIZE * 2)) : i = j := by
  have hmod : i ≡ j [MOD SIZE * 2] := .add_left_cancel' start h
  exact Nat.ModEq.eq_of_lt_of_lt hmod (by omega) (by omega)

/-- The slots before a wrap are all different, and so are those after it: at least half of
the table is reached. -/
theorem size_le_card_slots {SIZE : Nat} (hmax : SIZE * 2 < 2 ^ 32) (str_hash : UInt32) :
    SIZE ≤ (slots SIZE str_hash).toFinset.card := by
  have hMAX : MAX SIZE = SIZE * 2 := Nat.mod_eq_of_lt hmax
  have hlt : str_hash.toNat < 2 ^ 32 := str_hash.toNat_lt
  -- `SIZE` tries in a row, the first ones or those that follow the wrap
  obtain ⟨start, hstart⟩ : ∃ start, ∀ i < SIZE,
      (start + i) % (SIZE * 2) ∈ slots SIZE str_hash := by
    by_cases hwrap : str_hash.toNat + SIZE ≤ 2 ^ 32
    · refine ⟨str_hash.toNat, fun i hi => ?_⟩
      refine mem_map.mpr ⟨i, List.mem_range.mpr (by omega), ?_⟩
      rw [Nat.mod_eq_of_lt (by omega : str_hash.toNat + i < 2 ^ 32), hMAX]
    · refine ⟨0, fun i hi => ?_⟩
      refine mem_map.mpr ⟨2 ^ 32 - str_hash.toNat + i, List.mem_range.mpr (by omega), ?_⟩
      have hsum : str_hash.toNat + (2 ^ 32 - str_hash.toNat + i) = i + 2 ^ 32 := by omega
      rw [hsum, Nat.add_mod_right, Nat.mod_eq_of_lt (by omega : i < 2 ^ 32), hMAX, Nat.zero_add]
  calc SIZE = (Finset.range SIZE).card := (Finset.card_range SIZE).symm
    _ = ((Finset.range SIZE).image fun i => (start + i) % (SIZE * 2)).card := by
        refine (Finset.card_image_of_injOn fun i hi j hj hij => ?_).symm
        exact mod_eq_of_lt_half (Finset.mem_range.mp hi) (Finset.mem_range.mp hj) hij
    _ ≤ (slots SIZE str_hash).toFinset.card := by
        refine Finset.card_le_card fun k hk => ?_
        obtain ⟨i, hi, rfl⟩ := Finset.mem_image.mp hk
        exact mem_toFinset.mpr (hstart i (Finset.mem_range.mp hi))

/-! ## The table after some entries -/

/-- Entries the map is made for: no more than `SIZE`, of different names, with values in range. -/
structure Listed (SIZE : Nat) (entries : List Entry) : Prop where
  few : entries.length ≤ SIZE
  distinct : (entries.map Entry.key).Nodup
  inRange : ∀ entry ∈ entries, 0 ≤ entry.value ∧ entry.value < SIZE

def Entry.pair (entry : Entry) : CString × Int := (entry.key, entry.value)

/-- The last name listed for a value. -/
def lastName (entries : List Entry) (value : Int) : Option CString :=
  (entries.reverse.find? fun entry => entry.value = value).map Entry.key

/-- What the map has after these entries were added. -/
structure Names (SIZE : Nat) (hash : CString → UInt32) (m : StringMap) (entries : List Entry) :
    Prop where
  records : Probing.Holds (fun key => slots SIZE (hash key)) m.records (entries.map Entry.pair)
  reverse : ∀ value : Int, 0 ≤ value → value < SIZE →
    m.reverse (toUnsigned value) = lastName entries value

variable {SIZE : Nat} {hash : CString → UInt32} {m : StringMap} {entries : List Entry}

theorem toUnsigned_of_lt {value : Int} (h0 : 0 ≤ value) (h : value < 2 ^ 32) :
    (toUnsigned value : Int) = value := by
  unfold toUnsigned
  rw [Int.emod_eq_of_lt h0 h, Int.toNat_of_nonneg h0]

theorem Names.empty : Names SIZE hash empty [] where
  records := .empty _
  reverse := by intros; rfl

theorem lastName_append (entry : Entry) (value : Int) :
    lastName (entries ++ [entry]) value =
      if entry.value = value then some entry.key else lastName entries value := by
  unfold lastName
  by_cases h : entry.value = value <;> simp [h]

theorem Names.add (hmax : SIZE * 2 < 2 ^ 32) (h : Names SIZE hash m entries)
    {entry : Entry} (hlisted : Listed SIZE (entries ++ [entry])) :
    (add SIZE hash m entry.key entry.value).1 = true ∧
      Names SIZE hash (add SIZE hash m entry.key entry.value).2 (entries ++ [entry]) := by
  have hroom : (entries.map Entry.pair).length < (slots SIZE (hash entry.key)).toFinset.card := by
    have hfew := hlisted.few
    rw [length_append, length_singleton] at hfew
    rw [length_map]
    exact lt_of_lt_of_le hfew (size_le_card_slots hmax _)
  have hnew : ∀ other ∈ entries.map Entry.pair, other.1 ≠ entry.pair.1 := by
    intro other hother heq
    obtain ⟨e, he, rfl⟩ := mem_map.mp hother
    have hdistinct := hlisted.distinct
    rw [map_append, nodup_append] at hdistinct
    exact hdistinct.2.2 e.key (mem_map_of_mem he) entry.key (by simp) heq
  obtain ⟨hok, hrecords⟩ := h.records.insert entry.pair hnew hroom
  obtain ⟨h0, hlt⟩ := hlisted.inRange entry (by simp)
  have hindex := toUnsigned_of_lt h0 (by omega)
  have hin : ¬ SIZE ≤ toUnsigned entry.value := by omega
  rw [StringMap.add, if_neg hin]
  refine ⟨hok, ?_, ?_⟩
  · rw [map_append, map_singleton]
    exact hrecords
  · intro value hv0 hv
    have hvindex := toUnsigned_of_lt hv0 (by omega)
    rw [lastName_append]
    dsimp only
    by_cases hvalue : entry.value = value
    · rw [if_pos hvalue, hvalue, Function.update_self]
    · rw [if_neg hvalue, Function.update_of_ne (by omega), h.reverse value hv0 hv]

theorem Listed.start {before after : List Entry} (h : Listed SIZE (before ++ after)) :
    Listed SIZE before where
  few := by
    have := h.few
    rw [length_append] at this
    omega
  distinct := by
    have := h.distinct
    rw [map_append] at this
    exact this.of_append_left
  inRange entry hentry := h.inRange entry (mem_append_left after hentry)

theorem Names.addAll (hmax : SIZE * 2 < 2 ^ 32) (more : List Entry) {m : StringMap}
    {entries : List Entry} (h : Names SIZE hash m entries)
    (hlisted : Listed SIZE (entries ++ more)) :
    Names SIZE hash (addAll SIZE hash m more) (entries ++ more) := by
  induction more generalizing m entries with
  | nil => simpa [StringMap.addAll] using h
  | cons entry more ih =>
    have hsplit : entries ++ entry :: more = entries ++ [entry] ++ more := by simp
    rw [hsplit] at hlisted ⊢
    exact ih (h.add hmax hlisted.start).2 hlisted

/-! ## What is found -/

theorem Names.find (h : Names SIZE hash m entries) {entry : Entry} (hentry : entry ∈ entries) :
    find SIZE hash m entry.key = some entry.value := by
  rw [StringMap.find, findLoop_eq]
  exact h.records.lookup (mem_map_of_mem hentry)

theorem Names.find_other (h : Names SIZE hash m entries) {key : CString}
    (hkey : key ∉ entries.map Entry.key) : StringMap.find SIZE hash m key = none := by
  rw [StringMap.find, findLoop_eq]
  apply h.records.lookup_other
  intro other hother heq
  obtain ⟨entry, hentry, rfl⟩ := mem_map.mp hother
  exact hkey (mem_map.mpr ⟨entry, hentry, heq⟩)

theorem Names.findName (hmax : SIZE * 2 < 2 ^ 32) (h : Names SIZE hash m entries) {value : Int}
    (h0 : 0 ≤ value) (hlt : value < SIZE) :
    findName SIZE m value = lastName entries value := by
  have hindex := toUnsigned_of_lt h0 (by omega)
  rw [StringMap.findName, if_neg (by omega), h.reverse value h0 hlt]

/-- The constructor reads all of the entries where their bytes fit its argument. -/
theorem declared_eq {sizeofEntry : Nat} (hsizeof : 0 < sizeofEntry)
    (hbytes : entries.length * sizeofEntry < 2 ^ 32) :
    declared SIZE hash sizeofEntry entries = addAll SIZE hash empty entries := by
  rw [declared, construct, Nat.mod_eq_of_lt hbytes, Nat.mul_div_cancel _ hsizeof, take_length]

/-- Where `SIZE * 2` and the bytes of the entries fit an `unsigned int`, all are inserted; then
the names are found by the values and the values by the names, whatever the hashes are. -/
theorem declared_bidirectional (hmax : SIZE * 2 < 2 ^ 32) {sizeofEntry : Nat}
    (hsizeof : 0 < sizeofEntry) (hbytes : entries.length * sizeofEntry < 2 ^ 32)
    (hlisted : Listed SIZE entries) :
    (∀ before entry after, entries = before ++ entry :: after →
      (add SIZE hash (addAll SIZE hash empty before) entry.key entry.value).1 = true) ∧
    (∀ entry ∈ entries,
      find SIZE hash (declared SIZE hash sizeofEntry entries) entry.key = some entry.value) ∧
    (∀ key, key ∉ entries.map Entry.key →
      find SIZE hash (declared SIZE hash sizeofEntry entries) key = none) ∧
    ∀ value : Int, 0 ≤ value → value < SIZE →
      findName SIZE (declared SIZE hash sizeofEntry entries) value = lastName entries value := by
  rw [declared_eq hsizeof hbytes]
  have hnames : Names SIZE hash (addAll SIZE hash empty entries) entries :=
    Names.empty.addAll hmax entries hlisted
  refine ⟨?_, fun _ => hnames.find, fun _ => hnames.find_other, fun _ => hnames.findName hmax⟩
  intro before entry after hentries
  have hsplit : entries = before ++ [entry] ++ after := by simp [hentries]
  have hbefore : Listed SIZE (before ++ [entry]) := (hsplit ▸ hlisted).start
  exact ((Names.empty.addAll hmax before hbefore.start).add hmax hbefore).1

/-- `"a"`, `"aa"`, ... -/
def letters (n : Nat) : CString where
  chars := List.replicate n 97
  terminated := by
    intro h
    exact absurd (List.eq_of_mem_replicate h) (by decide)

def numbered (n : Nat) : List Entry := (List.range n).map fun i => ⟨letters (i + 1), i⟩

theorem declared_bidirectional_two :
    find 2 djb2 (declared 2 djb2 16 [⟨letters 1, 1⟩, ⟨letters 2, 1⟩]) (letters 2) = some 1 ∧
      findName 2 (declared 2 djb2 16 [⟨letters 1, 1⟩, ⟨letters 2, 1⟩]) 1 = some (letters 2) := by
  obtain ⟨-, hfind, -, hname⟩ := @declared_bidirectional 2 djb2
    [⟨letters 1, 1⟩, ⟨letters 2, 1⟩] (by decide) 16 (by decide) (by decide)
    ⟨by decide, by decide, by decide⟩
  exact ⟨hfind ⟨letters 2, 1⟩ (by decide), hname 1 (by decide) (by decide)⟩

theorem numbered_listed {n : Nat} (h : n ≤ SIZE) : Listed SIZE (numbered n) where
  few := by simpa [numbered] using h
  distinct := by
    rw [numbered, map_map]
    refine .map ?_ nodup_range
    intro i j hij
    have hlength := congrArg (fun key : CString => key.chars.length) hij
    simpa [letters] using hlength
  inRange := by
    intro entry hentry
    obtain ⟨i, hi, rfl⟩ := mem_map.mp hentry
    have := List.mem_range.mp hi
    constructor <;> dsimp only <;> omega

theorem declared_of_wrap {sizeofEntry : Nat}
    (hwrap : entries.length * sizeofEntry % 2 ^ 32 = 0) :
    declared SIZE hash sizeofEntry entries = empty := by
  rw [declared, construct, hwrap, Nat.zero_div]
  rfl

/-- With `SIZE * 2` wrapped to 2 the third name has no record; and where the bytes of all the
entries wrap to none, no name has one. -/
theorem declared_incomplete :
    (Listed (2 ^ 31 + 1) (numbered 3) ∧ ⟨letters 3, 2⟩ ∈ numbered 3 ∧
      find (2 ^ 31 + 1) djb2 (declared (2 ^ 31 + 1) djb2 16 (numbered 3)) (letters 3) = none) ∧
    Listed (2 ^ 28) (numbered (2 ^ 28)) ∧ ⟨letters 1, 0⟩ ∈ numbered (2 ^ 28) ∧
      find (2 ^ 28) djb2 (declared (2 ^ 28) djb2 16 (numbered (2 ^ 28))) (letters 1) = none := by
  refine ⟨⟨numbered_listed (by norm_num), by decide, by decide +kernel⟩,
    numbered_listed le_rfl, ?_, ?_⟩
  · exact mem_map.mpr ⟨0, List.mem_range.mpr (by norm_num), rfl⟩
  · have hwrap : (numbered (2 ^ 28)).length * 16 % 2 ^ 32 = 0 := by
      rw [numbered, length_map, length_range]
      norm_num
    rw [declared_of_wrap hwrap]
    exact Names.empty.find_other (by simp)

end StringMap

end Lhatove
