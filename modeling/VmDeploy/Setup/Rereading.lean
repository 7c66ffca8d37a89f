import VmDeploy.Setup.Emitted

/-! The lines of `_emit_toml`, read again one by one. -/

set_option autoImplicit false

open Toml hiding Text
open Python

namespace VmDeploy.Setup

open Config (valueAt valueAt_cons statements_keep)

section Grown

variable {table : Table} {key : String} {value : Value}

theorem get?_snoc (absent : Dict.get? table key = none) (other : String) :
    Dict.get? (table ++ [(key, value)]) other =
      if key = other then some value else Dict.get? table other := by
  induction table with
  | nil => simp [Dict.get?_cons]
  | cons entry table ih =>
    rw [Dict.get?_cons] at absent
    split at absent
    · cases absent
    · next differs =>
      rw [List.cons_append, Dict.get?_cons, Dict.get?_cons, ih absent]
      by_cases here : entry.1 = other
      · have elsewhere : key ≠ other := fun same => differs (here.trans same.symm)
        simp [here, elsewhere]
      · simp [here]

theorem assign_snoc (absent : Dict.get? table key = none) (value' : Value) :
    Dict.assign table key value' = table ++ [(key, value')] ∧
      ∀ value, Dict.assign (table ++ [(key, value)]) key value' = table ++ [(key, value')] := by
  induction table with
  | nil => simp [Dict.assign]
  | cons entry table ih =>
    rw [Dict.get?_cons] at absent
    split at absent
    · cases absent
    · next differs =>
      obtain ⟨fresh, replaced⟩ := ih absent
      simp [Dict.assign, differs, fresh, replaced]

theorem keys_append (front back : Table) :
    Dict.keys (front ++ back) = Dict.keys front ++ Dict.keys back :=
  List.map_append

theorem get?_absent (absent : key ∉ Dict.keys table) : Dict.get? table key = none := by
  rw [← Option.not_isSome_iff_eq_none, Dict.isSome_get?]
  exact absent

theorem get?_middle {entry : String × Value} {rest : Table}
    (distinct : (Dict.keys (table ++ entry :: rest)).Nodup) : Dict.get? table entry.1 = none := by
  rw [keys_append] at distinct
  refine get?_absent fun member => ?_
  exact (List.disjoint_of_nodup_append distinct) member (List.mem_map_of_mem List.mem_cons_self)

end Grown

/-- A table at a key of a document, whatever its entries are. -/
structure Place (header : Key) (grow : Table → Table) : Prop where
  adds : ∀ inner key value, Dict.get? inner key = none →
    addEntry true header key value (grow inner) = some (grow (inner ++ [(key, value)]))
  leads : ∀ inner key, valueAt (.table (grow inner)) (header ++ [key]) = Dict.get? inner key

theorem valueAt_single (table : Table) (key : String) :
    valueAt (.table table) [key] = Dict.get? table key := by
  cases found : Dict.get? table key with
  | none => exact Config.valueAt_absent [] found
  | some value => exact valueAt_cons [] found

theorem place_top : Place [] id where
  adds := by
    intro inner key value absent
    simp [addEntry, updateNest, absent, (assign_snoc absent value).1]
  leads := valueAt_single

theorem place_table {done : Table} {name : String} (absent : Dict.get? done name = none) :
    Place [name] (fun inner => done ++ [(name, .table inner)]) where
  adds := by
    intro inner key value fresh
    simp [addEntry, updateNest, get?_snoc absent, fresh,
      (assign_snoc fresh value).1,
      (assign_snoc absent _).2]
  leads := by
    intro inner key
    have here : Dict.get? (done ++ [(name, Value.table inner)]) name = some (.table inner) := by
      rw [get?_snoc absent, if_pos rfl]
    rw [List.singleton_append, valueAt_cons [key] here, valueAt_single]

section Lines

variable {rt : Runtime} {header : Key} {grow : Table → Table} {flags : Flags}

def Readable (digitLimit : Option Nat) : Value → Prop
  | .boolean _ => True
  | .integer value => converts digitLimit value.natAbs = true
  | .string text => ∀ c ∈ text.toList, isPlain c = true
  | _ => False

/-- A text with a quotation mark, a backslash or a control character. -/
def Strange (value : Value) : Prop :=
  ∃ text, value = .string text ∧ ∃ c ∈ text.toList, isPlain c = false

theorem not_readable {digitLimit : Option Nat} {value : Value} (strange : Strange value) :
    ¬ Readable digitLimit value := by
  obtain ⟨text, rfl, c, member, odd⟩ := strange
  intro readable
  have plain := readable c member
  rw [odd] at plain
  cases plain

theorem withoutReturns_front {front : Text} (none : '\r' ∉ front) (rest : Text) :
    withoutReturns (front ++ rest) = front ++ withoutReturns rest := by
  induction front with
  | nil => rfl
  | cons c front ih =>
    obtain ⟨here, later⟩ := not_or.mp (mt List.mem_cons.mpr none)
    rw [List.cons_append, withoutReturns_cons (Ne.symm here), ih later, List.cons_append]

theorem readValue_render {value : Value} (readable : Readable rt.digitLimit value) (more : Text) :
    '\r' ∉ (renderValue rt value).toList ∧
      (∀ c ∈ ((renderValue rt value).toList ++ '\n' :: more).head?, isBlank c = false) ∧
      ∀ fuel, readValue rt.digitLimit (fuel + 1) ((renderValue rt value).toList ++ '\n' :: more) =
        some (value, '\n' :: more) := by
  cases value with
  | boolean value =>
    refine ⟨?_, ?_, fun fuel => readValue_boolean value fuel _⟩
    · cases value <;> simp [renderValue]
    · cases value <;> simp [renderValue, isBlank]
  | integer value =>
    have digits := isDigit_decimalDigits value.natAbs
    have written : (renderValue rt (.integer value)).toList = (toString value).toList := rfl
    have chars : ∀ c ∈ (toString value).toList, c.isDigit = true ∨ c = '-' := by
      intro c member
      rw [toList_toString_int] at member
      split at member
      · exact .inl (digits c member)
      · exact (List.mem_cons.mp member).symm.imp (digits c) id
    rw [written]
    refine ⟨?_, ?_, fun fuel => readValue_integer readable fuel more⟩
    · intro member
      rcases chars '\r' member with digit | minus
      · cases digit
      · cases minus
    · intro c first
      cases whole : (toString value).toList with
      | nil =>
        obtain rfl : '\n' = c := Option.some.inj (by rwa [whole] at first)
        rfl
      | cons d rest =>
        obtain rfl : d = c := Option.some.inj (by rwa [whole] at first)
        rcases chars d (by rw [whole]; exact List.mem_cons_self) with digit | rfl
        · refine not_blank_of_bare ?_
          simp [isBareKeyChar, Char.isAlphanum, digit]
        · rfl
  | string text =>
    have written : (renderValue rt (.string text)).toList ++ '\n' :: more =
        '"' :: (text.toList ++ '"' :: '\n' :: more) := by
      simp [renderValue]
      rfl
    refine ⟨?_, ?_, fun fuel => ?_⟩
    · have quoted : (renderValue rt (.string text)).toList = '"' :: (text.toList ++ ['"']) := by
        simp [renderValue]
        rfl
      rw [quoted]
      intro member
      rcases List.mem_cons.mp member with quote | inside
      · cases quote
      · rcases List.mem_append.mp inside with inside | quote
        · cases readable '\r' inside
        · simp at quote
    · rw [written]
      simp [isBlank]
    · rw [written, readValue_plain readable]
      simp
  | _ => cases readable

section Entry

variable {key : String} {value : Value} {inner : Table} {more : Text}

theorem bare_no_return (bare : IsBareKey key) : '\r' ∉ key.toList := by
  intro member
  cases bare.2 '\r' member

theorem withoutReturns_line (bare : IsBareKey key) (text : Text) :
    withoutReturns (entryText key text) = entryText key (withoutReturns text) ∧
      ∃ c rest, entryText key (withoutReturns text) = c :: rest ∧ isBlank c = false ∧ c ≠ '\n' := by
  obtain ⟨c, others, chars, here⟩ := bare.cons
  constructor
  · rw [entryText, withoutReturns_front (bare_no_return bare), withoutReturns_cons (by decide),
      withoutReturns_cons (by decide), withoutReturns_cons (by decide), entryText]
  · exact ⟨c, _, by rw [entryText, chars, List.cons_append], not_blank_of_bare here,
      bare_ne here (by decide)⟩

theorem statements_entry (rt : Runtime) (more : Text) (place : Place header grow) (unfrozen : flags.has header .frozen = false)
    (bare : IsBareKey key) (readable : Readable rt.digitLimit value)
    (fresh : Dict.get? inner key = none) (fuel : Nat) :
    statements rt.digitLimit (fuel + 1) header ⟨grow inner, flags, []⟩
        (withoutReturns (lineText rt (key, value) more)) =
      statements rt.digitLimit fuel header ⟨grow (inner ++ [(key, value)]), flags, []⟩
        (withoutReturns more) := by
  obtain ⟨noReturn, starts, reads⟩ := readValue_render readable (withoutReturns more)
  have single : value.isNest = false := by
    cases value with
    | array _ | table _ => cases readable
    | _ => rfl
  have rendered : withoutReturns ((renderValue rt value).toList ++ '\n' :: more) =
      (renderValue rt value).toList ++ '\n' :: withoutReturns more := by
    rw [withoutReturns_front noReturn, withoutReturns_cons (by decide)]
  obtain ⟨line, c, rest, chars, blank, inside⟩ :=
    withoutReturns_line bare ((renderValue rt value).toList ++ '\n' :: more)
  rw [rendered] at line chars
  rw [lineText, line]
  obtain ⟨size, entry⟩ := keyValue_bare rt.digitLimit ⟨grow inner, flags, []⟩ bare starts unfrozen
  have read := statement_bare rt.digitLimit header ⟨grow inner, flags, []⟩
    ((renderValue rt value).toList ++ '\n' :: withoutReturns more) bare
  rw [entry, reads, Option.bind_some, place.adds _ _ _ fresh] at read
  simp only [Option.map_some, single, Bool.false_eq_true, if_false] at read
  rw [chars] at read ⊢
  exact statements_line blank inside fuel read

theorem lineText_length (bare : IsBareKey key) (readable : Readable rt.digitLimit value)
    (more : Text) :
    (withoutReturns more).length < (withoutReturns (lineText rt (key, value) more)).length := by
  have noReturn := (readValue_render readable more).1
  rw [lineText, (withoutReturns_line bare _).1, withoutReturns_front noReturn,
    withoutReturns_cons (by decide)]
  simp only [entryText, List.length_append, List.length_cons]
  omega

-- A line whose text is not plain sets another one, if the document is read at all.
theorem statements_strange (place : Place header grow)
    (unfrozen : flags.has header .frozen = false) {text : String} {fuel : Nat} {document : Table}
    (bare : IsBareKey key) (strange : ∃ c ∈ text.toList, isPlain c = false) (fresh : Dict.get? inner key = none)
    (other : ∀ c ∈ (withoutReturns more).head?, c ≠ '"' ∧ c ≠ '\\' ∧ c ≠ '\r')
    (read : statements rt.digitLimit (fuel + 1) header ⟨grow inner, flags, []⟩
      (withoutReturns (lineText rt (key, .string text) more)) = some document) :
    ∃ found, found ≠ text ∧ valueAt (.table document) (header ++ [key]) = some (.string found) := by
  have written : (renderValue rt (.string text)).toList ++ '\n' :: more =
      '"' :: (text.toList ++ '"' :: '\n' :: more) := by
    simp [renderValue]
    rfl
  have returns : withoutReturns ((renderValue rt (.string text)).toList ++ '\n' :: more) =
      '"' :: (withoutReturns text.toList ++ '"' :: '\n' :: withoutReturns more) := by
    rw [written, withoutReturns_cons (by decide), withoutReturns_append _ (by simp),
      withoutReturns_cons (by decide), withoutReturns_cons (by decide)]
  obtain ⟨line, c, rest, chars, blank, inside⟩ :=
    withoutReturns_line bare ((renderValue rt (.string text)).toList ++ '\n' :: more)
  rw [returns] at line chars
  rw [lineText, line, chars] at read
  obtain ⟨header', out, left, steps, ends⟩ := statements_read blank inside read
  have starts : ∀ c ∈ ('"' :: (withoutReturns text.toList ++ '"' :: '\n' ::
      withoutReturns more)).head?, isBlank c = false := by simp [isBlank]
  obtain ⟨size, entry⟩ := keyValue_bare rt.digitLimit ⟨grow inner, flags, []⟩ bare starts unfrozen
  rw [← chars, statement_bare _ _ _ _ bare, entry] at steps
  obtain ⟨⟨next, after⟩, steps, same⟩ := Option.map_eq_some_iff.mp steps
  obtain ⟨⟨value, after'⟩, reads, steps⟩ := Option.bind_eq_some_iff.mp steps
  obtain ⟨found, rfl, differs⟩ := readValue_strange strange other reads
  rw [place.adds _ _ _ fresh] at steps
  cases steps
  cases same
  refine ⟨String.ofList found, ?_, ?_⟩
  · rintro rfl
    exact differs String.toList_ofList.symm
  · have set : valueAt (.table (grow (inner ++ [(key, .string (String.ofList found))])))
        (header ++ [key]) = some (.string (String.ofList found)) := by
      rw [place.leads, get?_snoc fresh, if_pos rfl]
    rcases ends with rfl | ⟨more, read⟩
    · exact set
    · exact statements_keep read set

end Entry

end Lines

section Tables

variable {rt : Runtime} {header : Key} {grow : Table → Table} {flags : Flags} {entries : Table}
  {more : Text}

theorem statements_entries (rt : Runtime) (more : Text) (inner : Table) (place : Place header grow)
    (unfrozen : flags.has header .frozen = false) (bare : ∀ entry ∈ entries, IsBareKey entry.1)
    (readable : ∀ entry ∈ entries, Readable rt.digitLimit entry.2)
    (distinct : (Dict.keys (inner ++ entries)).Nodup) {fuel : Nat}
    (enough : (withoutReturns (entriesText rt entries more)).length < fuel) :
    ∃ left, (withoutReturns more).length < left ∧
      statements rt.digitLimit fuel header ⟨grow inner, flags, []⟩
          (withoutReturns (entriesText rt entries more)) =
        statements rt.digitLimit left header ⟨grow (inner ++ entries), flags, []⟩
          (withoutReturns more) := by
  induction entries generalizing inner fuel with
  | nil => exact ⟨fuel, enough, by rw [List.append_nil]; rfl⟩
  | cons entry entries ih =>
    obtain ⟨bare, others⟩ := List.forall_mem_cons.mp bare
    obtain ⟨here, later⟩ := List.forall_mem_cons.mp readable
    have whole : entriesText rt (entry :: entries) more =
        lineText rt (entry.1, entry.2) (entriesText rt entries more) := rfl
    have fresh := get?_middle distinct
    cases fuel with
    | zero => omega
    | succ fuel =>
      have step := statements_entry rt (entriesText rt entries more) place unfrozen bare here fresh
        fuel
      have shorter := lineText_length bare here (entriesText rt entries more)
      rw [whole] at enough ⊢
      rw [step]
      have further : (Dict.keys (inner ++ [(entry.1, entry.2)] ++ entries)).Nodup := by
        rwa [List.append_assoc]
      have room : (withoutReturns (entriesText rt entries more)).length < fuel := by omega
      obtain ⟨left, still, run⟩ := ih _ others later further room
      exact ⟨left, still, by rw [run, List.append_assoc]; rfl⟩

-- Where a text is not plain, another one is read.
theorem statements_entries_strange (inner : Table) (place : Place header grow)
    (unfrozen : flags.has header .frozen = false)
    (bare : ∀ entry ∈ entries, IsBareKey entry.1)
    (readable : ∀ entry ∈ entries, Readable rt.digitLimit entry.2 ∨ Strange entry.2)
    (strange : ∃ entry ∈ entries, Strange entry.2)
    (distinct : (Dict.keys (inner ++ entries)).Nodup)
    (other : ∀ c ∈ (withoutReturns more).head?, c ≠ '"' ∧ c ≠ '\\' ∧ c ≠ '\r')
    {fuel : Nat} {document : Table}
    (read : statements rt.digitLimit fuel header ⟨grow inner, flags, []⟩
      (withoutReturns (entriesText rt entries more)) = some document) :
    ∃ key text found, (key, .string text) ∈ entries ∧ found ≠ text ∧
      valueAt (.table document) (header ++ [key]) = some (.string found) := by
  induction entries generalizing inner fuel with
  | nil => simp at strange
  | cons entry entries ih =>
    obtain ⟨key, value⟩ := entry
    obtain ⟨bare, others⟩ := List.forall_mem_cons.mp bare
    obtain ⟨here, later⟩ := List.forall_mem_cons.mp readable
    have whole : entriesText rt ((key, value) :: entries) more =
        lineText rt (key, value) (entriesText rt entries more) := rfl
    have fresh := get?_middle distinct
    cases fuel with
    | zero => cases read
    | succ fuel =>
      rw [whole] at read
      rcases here with readable | ⟨text, rfl, odd⟩
      · rw [statements_entry rt (entriesText rt entries more) place unfrozen bare readable fresh
          fuel] at read
        have further : (Dict.keys (inner ++ [(key, value)] ++ entries)).Nodup := by
          rwa [List.append_assoc]
        have beyond : ∃ entry ∈ entries, Strange entry.2 := by
          obtain ⟨found, member, odd⟩ := strange
          rcases List.mem_cons.mp member with rfl | member
          · exact absurd readable (not_readable odd)
          · exact ⟨found, member, odd⟩
        obtain ⟨other, text, found, member, rest⟩ := ih _ others later beyond further read
        exact ⟨other, text, found, List.mem_cons_of_mem _ member, rest⟩
      · have next : ∀ c ∈ (withoutReturns (entriesText rt entries more)).head?,
            c ≠ '"' ∧ c ≠ '\\' ∧ c ≠ '\r' := by
          cases entries with
          | nil => exact other
          | cons entry entries =>
            obtain ⟨c, rest, chars, first⟩ := (others entry List.mem_cons_self).cons
            have line := (withoutReturns_line (others entry List.mem_cons_self)
              ((renderValue rt entry.2).toList ++ '\n' :: entriesText rt entries more)).1
            have whole : entriesText rt (entry :: entries) more = entryText entry.1
                ((renderValue rt entry.2).toList ++ '\n' :: entriesText rt entries more) := rfl
            rw [whole, line, entryText, chars]
            intro d head
            obtain rfl : c = d := Option.some.inj head
            exact ⟨bare_ne first (by decide), bare_ne first (by decide), bare_ne first (by decide)⟩
        obtain ⟨found, differs, set⟩ := statements_strange place unfrozen bare odd fresh next read
        exact ⟨key, text, found, List.mem_cons_self, differs, set⟩

end Tables

def Declared (names : List String) (flags : Flags) : Prop :=
  ∀ flag ∈ flags, flag.kind = .explicitNest ∧ flag.recursive = false ∧ ∃ name ∈ names, flag.key = [name]

section Headers

variable {names : List String} {flags : Flags} {name : String}

theorem Declared.unfrozen (declared : Declared names flags) (key : Key) :
    flags.has key .frozen = false := by
  rw [Flags.has, List.any_eq_false]
  intro flag member
  simp [(declared flag member).1]

theorem Declared.fresh (declared : Declared names flags) (absent : name ∉ names) (kind : FlagKind) :
    flags.has [name] kind = false := by
  rw [Flags.has, List.any_eq_false]
  intro flag member
  obtain ⟨-, single, other, listed, same⟩ := declared flag member
  have differs : other ≠ name := by
    rintro rfl
    exact absent listed
  simp [single, same, differs]

theorem Declared.header (declared : Declared names flags) {more : List String}
    (longer : ∀ other ∈ names, other ∈ more) (listed : name ∈ more) :
    Declared more (⟨[name], .explicitNest, false⟩ :: flags) := by
  intro flag member
  rcases List.mem_cons.mp member with rfl | member
  · exact ⟨rfl, rfl, name, listed, rfl⟩
  · obtain ⟨kind, single, other, here, same⟩ := declared flag member
    exact ⟨kind, single, other, longer other here, same⟩

end Headers

section Documents

variable {rt : Runtime} {header : Key} {flags : Flags} {done : Table} {more : Text}
  {table : String × Table} {tables : List (String × Table)}

theorem withoutReturns_header {name : String} (bare : IsBareKey name) (more : Text) :
    withoutReturns (headerText name more) = headerText name (withoutReturns more) := by
  rw [headerText, withoutReturns_cons (by decide), withoutReturns_front (bare_no_return bare),
    withoutReturns_cons (by decide), withoutReturns_cons (by decide), headerText]

-- The header of a new table, and then its lines.
theorem statements_header (bare : IsBareKey table.1) (declared : Declared (Dict.keys done) flags)
    (fresh : table.1 ∉ Dict.keys done) (fuel : Nat) :
    statements rt.digitLimit (fuel + 1) header ⟨done, flags, []⟩
        (withoutReturns (headerText table.1 more)) =
      statements rt.digitLimit fuel [table.1]
        ⟨done ++ [(table.1, .table [])], ⟨[table.1], .explicitNest, false⟩ :: flags, []⟩
        (withoutReturns more) := by
  have absent := get?_absent fresh
  rw [withoutReturns_header bare, headerText]
  refine statements_line (by decide) (by decide) fuel ?_
  have read := @statement_header rt.digitLimit header ⟨done, flags, []⟩ (withoutReturns more) table.1
    bare absent (declared.fresh fresh)
  rw [headerText] at read
  rw [read, (assign_snoc absent _).1]
  rfl

def headerFlag (name : String) : Flag :=
  ⟨[name], .explicitNest, false⟩

theorem statements_opened (header : Key) (bare : IsBareKey table.1)
    (declared : Declared (Dict.keys done) flags)
    (distinct : (Dict.keys (done ++ (table :: tables).map asEntry)).Nodup) {fuel : Nat}
    (enough : (withoutReturns (laterText rt (table :: tables))).length < fuel) :
    Dict.get? done table.1 = none ∧
      Declared (Dict.keys (done ++ [asEntry table])) (headerFlag table.1 :: flags) ∧
      ∃ left, (withoutReturns (entriesText rt table.2 (laterText rt tables))).length < left ∧
        statements rt.digitLimit fuel header ⟨done, flags, []⟩
            (withoutReturns (laterText rt (table :: tables))) =
          statements rt.digitLimit left [table.1]
            ⟨done ++ [(table.1, .table [])], headerFlag table.1 :: flags, []⟩
            (withoutReturns (entriesText rt table.2 (laterText rt tables))) := by
  have middle : (Dict.keys (done ++ asEntry table :: tables.map asEntry)).Nodup := distinct
  have absent : Dict.get? done table.1 = none := get?_middle middle
  have fresh : table.1 ∉ Dict.keys done := by
    rwa [← Option.not_isSome_iff_eq_none, Dict.isSome_get?] at absent
  refine ⟨absent, ?_, ?_⟩
  · have listed : table.1 ∈ Dict.keys (done ++ [asEntry table]) := by
      simp [Dict.keys, asEntry]
    refine declared.header (fun name member => ?_) listed
    rw [keys_append]
    exact List.mem_append_left _ member
  · have text : withoutReturns (laterText rt (table :: tables)) =
        '\n' :: withoutReturns (headerText table.1 (entriesText rt table.2 (laterText rt tables))) := by
      rw [laterText, withoutReturns_cons (by decide)]
    rw [text] at enough ⊢
    rw [withoutReturns_header bare] at enough
    simp only [headerText, List.length_cons, List.length_append] at enough
    obtain ⟨left, rfl⟩ : ∃ left, fuel = left + 2 := ⟨fuel - 2, by omega⟩
    refine ⟨left, by omega, ?_⟩
    rw [statements_newline, statements_header bare declared fresh]
    rfl

theorem statements_tables (bare : ∀ table ∈ tables, IsBareKey table.1)
    (scalars : ∀ table ∈ tables, Scalars table.2)
    (readable : ∀ table ∈ tables, ∀ entry ∈ table.2, Readable rt.digitLimit entry.2)
    (declared : Declared (Dict.keys done) flags)
    (distinct : (Dict.keys (done ++ tables.map asEntry)).Nodup) {fuel : Nat}
    (enough : (withoutReturns (laterText rt tables)).length < fuel) :
    statements rt.digitLimit fuel header ⟨done, flags, []⟩ (withoutReturns (laterText rt tables)) =
      some (done ++ tables.map asEntry) := by
  induction tables generalizing done flags header fuel with
  | nil =>
    cases fuel with
    | zero => omega
    | succ fuel => rw [List.map_nil, List.append_nil]; rfl
  | cons table tables ih =>
    obtain ⟨bareName, bare⟩ := List.forall_mem_cons.mp bare
    obtain ⟨inner, scalars⟩ := List.forall_mem_cons.mp scalars
    obtain ⟨here, readable⟩ := List.forall_mem_cons.mp readable
    obtain ⟨absent, declared, left, room, opens⟩ :=
      statements_opened header bareName declared distinct enough
    obtain ⟨left, room, run⟩ := statements_entries rt (laterText rt tables) [] (place_table absent)
      (declared.unfrozen [table.1]) inner.bare here inner.distinct room
    have whole : done ++ (table :: tables).map asEntry =
        done ++ [asEntry table] ++ tables.map asEntry := by simp
    rw [whole] at distinct ⊢
    rw [opens, run, List.nil_append]
    exact ih bare scalars readable declared distinct room

theorem statements_tables_strange (bare : ∀ table ∈ tables, IsBareKey table.1)
    (scalars : ∀ table ∈ tables, Scalars table.2)
    (readable : ∀ table ∈ tables, ∀ entry ∈ table.2,
      Readable rt.digitLimit entry.2 ∨ Strange entry.2)
    (strange : ∃ table ∈ tables, ∃ entry ∈ table.2, Strange entry.2)
    (declared : Declared (Dict.keys done) flags)
    (distinct : (Dict.keys (done ++ tables.map asEntry)).Nodup) {fuel : Nat} {document : Table}
    (enough : (withoutReturns (laterText rt tables)).length < fuel)
    (read : statements rt.digitLimit fuel header ⟨done, flags, []⟩
      (withoutReturns (laterText rt tables)) = some document) :
    ∃ name entries key text found, (name, entries) ∈ tables ∧ (key, .string text) ∈ entries ∧
      found ≠ text ∧ valueAt (.table document) [name, key] = some (.string found) := by
  induction tables generalizing done flags header fuel with
  | nil => simp at strange
  | cons table tables ih =>
    obtain ⟨bareName, bare⟩ := List.forall_mem_cons.mp bare
    obtain ⟨inner, scalars⟩ := List.forall_mem_cons.mp scalars
    obtain ⟨here, readable⟩ := List.forall_mem_cons.mp readable
    obtain ⟨absent, declared, left, room, opens⟩ :=
      statements_opened header bareName declared distinct enough
    rw [opens] at read
    by_cases odd : ∃ entry ∈ table.2, Strange entry.2
    · have next : ∀ c ∈ (withoutReturns (laterText rt tables)).head?,
          c ≠ '"' ∧ c ≠ '\\' ∧ c ≠ '\r' := by
        cases tables with
        | nil => simp [laterText, withoutReturns]
        | cons table tables =>
          rw [laterText, withoutReturns_cons (by decide)]
          simp
      obtain ⟨key, text, found, member, differs, set⟩ := statements_entries_strange []
        (place_table absent) (declared.unfrozen [table.1]) inner.bare here odd inner.distinct next
        read
      exact ⟨table.1, table.2, key, text, found, List.mem_cons_self, member, differs, set⟩
    · have plain : ∀ entry ∈ table.2, Readable rt.digitLimit entry.2 := fun entry member =>
        (here entry member).resolve_right fun strange => odd ⟨entry, member, strange⟩
      obtain ⟨left, room, run⟩ := statements_entries rt (laterText rt tables) []
        (place_table absent) (declared.unfrozen [table.1]) inner.bare plain inner.distinct room
      rw [run, List.nil_append] at read
      have beyond : ∃ table ∈ tables, ∃ entry ∈ table.2, Strange entry.2 := by
        obtain ⟨other, member, strange⟩ := strange
        rcases List.mem_cons.mp member with rfl | member
        · exact absurd strange odd
        · exact ⟨other, member, strange⟩
      have whole : done ++ (table :: tables).map asEntry =
          done ++ [asEntry table] ++ tables.map asEntry := by simp
      rw [whole] at distinct
      obtain ⟨name, entries, key, text, found, member, rest⟩ :=
        ih bare scalars readable beyond declared distinct room read
      exact ⟨name, entries, key, text, found, List.mem_cons_of_mem _ member, rest⟩

end Documents

end VmDeploy.Setup
