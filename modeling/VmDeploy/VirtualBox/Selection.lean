import Mathlib.Data.List.Infix
import Mathlib.Data.List.TakeDrop
import VmDeploy.VirtualBox.GuestAddress

/-! The address that `_select_lan_address` picks, by the lines of a listing. -/

set_option autoImplicit false

open Python

namespace VmDeploy.VirtualBox

def fieldText (isName : Bool) : Text :=
  if isName then "/Name".toList else "/V4/IP".toList

def pathText : Text :=
  "/VirtualBox/GuestInfo/Net/".toList

def tailText (digits gap gap' : Text) (isName : Bool) (value : Text) : Text :=
  digits ++ (fieldText isName ++ (gap ++ ('=' :: (gap' ++ ('\'' :: (value ++ ['\'']))))))

def propertyTail (text : Text) : Option (NetMatch × Text) := do
  let (digits, rest) ← someOf isDecimal text
  let (isName, rest) ← ((afterPrefix? "/Name".toList rest).map fun rest => (true, rest)) <|>
    ((afterPrefix? "/V4/IP".toList rest).map fun rest => (false, rest))
  let (_, rest) ← someOf isSpace rest
  let rest ← afterPrefix? ['='] rest
  let (_, rest) ← someOf isSpace rest
  let rest ← afterPrefix? ['\''] rest
  let (value, rest) := rest.span (· ≠ '\'')
  let rest ← afterPrefix? ['\''] rest
  some (⟨digits, isName, value⟩, rest)

theorem netMatchAt_eq (text : Text) :
    netMatchAt text = (afterPrefix? pathText text).bind propertyTail := rfl

theorem span_quote {value rest : Text} (unquoted : '\'' ∉ value) :
    (value ++ '\'' :: rest).span (· ≠ '\'') = (value, '\'' :: rest) := by
  have all : ∀ c ∈ value, decide (c ≠ '\'') = true := by
    intro c member
    exact decide_eq_true fun same => unquoted (same ▸ member)
  rw [List.span_eq_takeWhile_dropWhile, List.takeWhile_append_of_pos all,
    List.dropWhile_append_of_pos all]
  simp

theorem field_read {isName : Bool} {text rest : Text}
    (read : ((afterPrefix? "/Name".toList text).map (fun rest => (true, rest)) <|>
      (afterPrefix? "/V4/IP".toList text).map (fun rest => (false, rest))) = some (isName, rest)) :
    text = fieldText isName ++ rest := by
  rw [Option.orElse_eq_some] at read
  obtain first | ⟨-, second⟩ := read
  · obtain ⟨_, known, same⟩ := Option.map_eq_some_iff.mp first
    cases same
    exact afterPrefix?_eq_some.mp known
  · obtain ⟨_, known, same⟩ := Option.map_eq_some_iff.mp second
    cases same
    exact afterPrefix?_eq_some.mp known

theorem field_of_text (isName : Bool) (rest : Text) :
    ((afterPrefix? "/Name".toList (fieldText isName ++ rest)).map (fun rest => (true, rest)) <|>
      (afterPrefix? "/V4/IP".toList (fieldText isName ++ rest)).map (fun rest => (false, rest))) =
        some (isName, rest) := by
  cases isName <;> rfl

def Written (found : NetMatch) (after text : Text) : Prop :=
  ∃ gap gap', text = tailText found.digits gap gap' found.isName found.value ++ after ∧
    (found.digits ≠ [] ∧ ∀ c ∈ found.digits, isDecimal c = true) ∧
    (gap ≠ [] ∧ ∀ c ∈ gap, isSpace c = true) ∧
    (gap' ≠ [] ∧ ∀ c ∈ gap', isSpace c = true) ∧ '\'' ∉ found.value

theorem propertyTail_written {text after : Text} {found : NetMatch}
    (read : propertyTail text = some (found, after)) : Written found after text := by
  simp only [propertyTail, Option.bind_eq_bind, Option.bind_eq_some_iff, Prod.exists,
    List.span_eq_takeWhile_dropWhile] at read
  obtain ⟨digits, _, number, isName, _, field, gap, _, wide, _, equals, gap', _, wide', w, opened,
    rest, closed, same⟩ := read
  cases same
  obtain ⟨parts, some_digits, decimal⟩ := someOf_eq_some number
  obtain ⟨parts', some_gap, spaces⟩ := someOf_eq_some wide
  obtain ⟨parts'', some_gap', spaces'⟩ := someOf_eq_some wide'
  refine ⟨gap, gap', ?_, ⟨some_digits, decimal⟩, ⟨some_gap, spaces⟩,
    ⟨some_gap', spaces'⟩, fun quoted => absurd (List.mem_takeWhile_imp quoted) (by simp)⟩
  have whole : w = w.takeWhile (· ≠ '\'') ++ '\'' :: after := by
    have split := List.takeWhile_append_dropWhile (p := (decide <| · ≠ '\'')) (l := w)
    rw [afterPrefix?_eq_some.mp closed] at split
    exact split.symm
  generalize w.takeWhile (· ≠ '\'') = value at whole ⊢
  rw [parts, field_read field, parts', afterPrefix?_eq_some.mp equals, parts'',
    afterPrefix?_eq_some.mp opened, whole]
  simp only [tailText, List.append_assoc, List.cons_append, List.nil_append]

theorem written_propertyTail {text after : Text} {found : NetMatch}
    (written : Written found after text) : propertyTail text = some (found, after) := by
  obtain ⟨gap, gap', rfl, ⟨some_digits, decimal⟩, ⟨some_gap, spaces⟩, ⟨some_gap', spaces'⟩,
    unquoted⟩ := written
  have slash : isDecimal '/' = false := by decide
  have equals : isSpace '=' = false := by decide
  have quote : isSpace '\'' = false := by decide
  have headed : ∀ rest, ∃ tail, fieldText found.isName ++ rest = '/' :: tail := by
    intro rest
    cases found.isName <;> exact ⟨_, rfl⟩
  have prefixed : ∀ (c : Char) (rest : Text), afterPrefix? [c] (c :: rest) = some rest :=
    fun c rest => afterPrefix?_eq_some.mpr rfl
  have first : ∀ rest, someOf isDecimal (found.digits ++ (fieldText found.isName ++ rest)) =
      some (found.digits, fieldText found.isName ++ rest) := by
    intro rest
    obtain ⟨tail, same⟩ := headed rest
    rw [same, someOf_append some_digits decimal slash]
  simp only [propertyTail, tailText, List.append_assoc, List.cons_append, List.nil_append,
    first, Option.bind_eq_bind, Option.bind_some, field_of_text,
    someOf_append some_gap spaces equals, prefixed, someOf_append some_gap' spaces' quote,
    span_quote unquoted]

-- A property that was read is read alike whatever follows.
theorem netMatchAt_append {text after : Text} {found : NetMatch}
    (read : netMatchAt text = some (found, after)) (rest : Text) :
    netMatchAt (text ++ rest) = some (found, after ++ rest) := by
  rw [netMatchAt_eq, Option.bind_eq_some_iff] at read
  obtain ⟨tail, path, read⟩ := read
  obtain ⟨gap, gap', parts, facts⟩ := propertyTail_written read
  have more : afterPrefix? pathText (text ++ rest) = some (tail ++ rest) := by
    rw [afterPrefix?_eq_some.mp path, List.append_assoc]
    exact afterPrefix?_eq_some.mpr rfl
  have written : Written found (after ++ rest) (tail ++ rest) :=
    ⟨gap, gap', by rw [parts, List.append_assoc], facts⟩
  rw [netMatchAt_eq, more]
  exact written_propertyTail written

theorem netMatchAt_suffix {text after : Text} {found : NetMatch}
    (read : netMatchAt text = some (found, after)) :
    after <:+ text ∧ after.length < text.length := by
  rw [netMatchAt_eq, Option.bind_eq_some_iff] at read
  obtain ⟨tail, path, read⟩ := read
  obtain ⟨gap, gap', parts, -⟩ := propertyTail_written read
  have whole : text = (pathText ++ tailText found.digits gap gap' found.isName found.value) ++ after := by
    rw [afterPrefix?_eq_some.mp path, parts, List.append_assoc]
  refine ⟨⟨_, whole.symm⟩, ?_⟩
  have size : pathText.length = 26 := rfl
  rw [whole]
  simp only [List.length_append, size]
  omega

theorem netMatchesFrom_steps {steps : Nat} {text : Text} (enough : text.length ≤ steps) :
    netMatchesFrom steps text = netMatches text := by
  rw [netMatches]
  induction steps using Nat.strongRecOn generalizing text with
  | ind steps ih =>
    cases text with
    | nil => cases steps <;> rfl
    | cons c rest =>
      rw [List.length_cons] at enough ⊢
      cases steps with
      | zero => omega
      | succ steps =>
        rw [netMatchesFrom, netMatchesFrom]
        cases read : netMatchAt (c :: rest) with
        | none => rw [ih steps (by omega) (by omega)]
        | some pair =>
          obtain ⟨found, after⟩ := pair
          have short := (netMatchAt_suffix read).2
          rw [List.length_cons] at short
          simp only [List.cons.injEq, true_and]
          rw [ih steps (by omega) (by omega)]
          rw [ih rest.length (by omega) (by omega)]

theorem netMatches_found {text after : Text} {found : NetMatch}
    (read : netMatchAt text = some (found, after)) :
    netMatches text = found :: netMatches after := by
  obtain ⟨-, short⟩ := netMatchAt_suffix read
  cases text with
  | nil => cases short
  | cons c rest =>
    rw [netMatches, List.length_cons, netMatchesFrom, read]
    rw [List.length_cons] at short
    exact congrArg (found :: ·) (netMatchesFrom_steps (by omega))

theorem netMatches_skip {c : Char} {rest : Text} (none : netMatchAt (c :: rest) = none) :
    netMatches (c :: rest) = netMatches rest := by
  rw [netMatches, List.length_cons, netMatchesFrom, none, netMatches]

/-- No property begins in the line and ends behind it. -/
def Closed (line : Text) : Prop :=
  ∀ suffix, suffix <:+ line → netMatchAt suffix = none →
    ∀ rest, netMatchAt (suffix ++ '\n' :: rest) = none

theorem Closed.suffix {line text : Text} (closed : Closed line) (ends : text <:+ line) :
    Closed text :=
  fun suffix inner => closed suffix (inner.trans ends)

-- A line where every path belongs to a property that ends there.
theorem closed_of_read {line : Text}
    (complete : ∀ suffix ∈ line.tails, (afterPrefix? pathText suffix).isSome →
      (netMatchAt suffix).isSome) : Closed line := by
  intro suffix ends unread rest
  have pathless : ∀ tail, suffix ≠ pathText ++ tail := by
    intro tail parts
    have read := complete suffix ((List.mem_tails _ _).mpr ends)
      (by rw [afterPrefix?_eq_some.mpr parts]; rfl)
    rw [unread] at read
    cases read
  have feedless : '\n' ∉ pathText := by decide
  rw [netMatchAt_eq]
  cases path : afterPrefix? pathText (suffix ++ '\n' :: rest) with
  | none => rfl
  | some tail =>
    exfalso
    rcases List.append_eq_append_iff.mp (afterPrefix?_eq_some.mp path) with
      ⟨more, parts, follows⟩ | ⟨more, parts, -⟩
    · cases more with
      | nil => exact pathless [] (by rw [parts, List.append_nil, List.append_nil])
      | cons c more =>
        cases follows
        exact feedless (by simp [parts])
    · exact pathless more parts

theorem netMatches_line {line : Text} (closed : Closed line) (rest : Text) :
    netMatches (line ++ '\n' :: rest) = netMatches line ++ netMatches rest := by
  induction size : line.length using Nat.strongRecOn generalizing line with
  | ind count ih =>
    cases line with
    | nil => exact netMatches_skip rfl
    | cons c more =>
      cases read : netMatchAt (c :: more) with
      | none =>
        have still := closed _ List.suffix_rfl read rest
        rw [List.cons_append] at still ⊢
        rw [netMatches_skip read, netMatches_skip still]
        rw [List.length_cons] at size
        exact ih more.length (by omega) (closed.suffix (List.suffix_cons c more)) rfl
      | some pair =>
        obtain ⟨found, after⟩ := pair
        obtain ⟨ends, short⟩ := netMatchAt_suffix read
        rw [netMatches_found read, netMatches_found (netMatchAt_append read _)]
        exact congrArg (found :: ·) (ih after.length (by omega) (closed.suffix ends) rfl)

theorem netMatches_lines {lines : List Text} (closed : ∀ line ∈ lines, Closed line) :
    netMatches (['\n'].intercalate lines) = lines.flatMap netMatches := by
  induction lines with
  | nil => rfl
  | cons line lines ih =>
    obtain ⟨here, later⟩ := List.forall_mem_cons.mp closed
    cases lines with
    | nil => simp
    | cons next lines =>
      rw [List.intercalate_cons_cons, List.append_assoc, List.singleton_append,
        netMatches_line here, ih later]
      rfl

/-- Lines with at most one name and one address for each interface, the indexes of which the
interpreter converts. -/
structure Listing (digitLimit : Option Nat) where
  lines : List Text
  closed : ∀ line ∈ lines, Closed line
  converted : ∀ line ∈ lines, ∀ found ∈ netMatches line, withinLimit digitLimit found.digits = true
  single : ((lines.flatMap netProperties).map fun property =>
    (property.index, property.isName)).Nodup

namespace Listing

variable {digitLimit : Option Nat}

def text (listing : Listing digitLimit) : Text :=
  ['\n'].intercalate listing.lines

def properties (listing : Listing digitLimit) : List NetProperty :=
  listing.lines.flatMap netProperties

def selected (listing : Listing digitLimit) (hostLan : Text) : Except String Text :=
  (readProperties digitLimit (netMatches listing.text)).map fun properties =>
    selectLanAddress (interfacesOf properties) hostLan

def Unusable (listing : Listing digitLimit) (index : Nat) : Prop :=
  (∃ name, ⟨index, true, name⟩ ∈ listing.properties ∧ isVirtualInterface name = true) ∨
    ∃ address, ⟨index, false, address⟩ ∈ listing.properties ∧ isUsableAddress address = false

/-- The larger listing has the same lines in any order, and those of further interfaces that
are unusable. -/
def Adds (listing larger : Listing digitLimit) : Prop :=
  ∃ added, larger.lines.Perm (listing.lines ++ added) ∧
    ∀ property ∈ added.flatMap netProperties, larger.Unusable property.index ∧
      ∀ other ∈ listing.properties, other.index ≠ property.index

/-- The address of the lowest index in the best class, or none where nothing is offered. -/
def Best (listing : Listing digitLimit) (hostLan address : Text) : Prop :=
  (address = [] ∧ ∀ index other, ¬ Offered listing.text index other) ∨
    ∃ index, Offered listing.text index address ∧
      ∀ other better, Offered listing.text other better →
        rank hostLan address ≤ rank hostLan better ∧
          (rank hostLan better = rank hostLan address → index ≤ other)

theorem properties_eq (listing : Listing digitLimit) :
    netProperties listing.text = listing.properties := by
  rw [netProperties, text, netMatches_lines listing.closed, List.map_flatMap]
  rfl

theorem selected_eq (listing : Listing digitLimit) (hostLan : Text) :
    listing.selected hostLan =
      .ok (selectLanAddress (interfacesOf (netProperties listing.text)) hostLan) := by
  have converted : ∀ found ∈ netMatches listing.text,
      withinLimit digitLimit found.digits = true := by
    rw [text, netMatches_lines listing.closed]
    intro found member
    obtain ⟨line, listed, member⟩ := List.mem_flatMap.mp member
    exact listing.converted line listed found member
  rw [selected, readProperties_eq_ok.mpr ⟨converted, rfl⟩]
  rfl

theorem consistent (listing : Listing digitLimit) : Consistent (netProperties listing.text) := by
  rw [properties_eq]
  intro index isName first second one other
  have same := List.inj_on_of_nodup_map listing.single one other rfl
  exact congrArg NetProperty.value same

theorem selected_best (listing : Listing digitLimit) (hostLan : Text) :
    ∃ address, listing.selected hostLan = .ok address ∧ listing.Best hostLan address := by
  refine ⟨_, listing.selected_eq hostLan, ?_⟩
  rw [selectLanAddress_chosen]
  cases picked : chosen hostLan ((candidates listing.text).map Prod.snd) with
  | none =>
    refine .inl ⟨rfl, fun index other offered => ?_⟩
    have member := (mem_candidates listing.consistent index other).mpr offered
    simp only [chosen, Option.orElse_eq_none] at picked
    have never := List.find?_eq_none.mp picked.2.2 other (List.mem_map.mpr ⟨_, member, rfl⟩)
    exact never rfl
  | some address =>
    obtain ⟨⟨index, held⟩, member, rfl, best⟩ :=
      chosen_best (candidates_sorted listing.text) picked
    refine .inr ⟨index, (mem_candidates listing.consistent index held).mp member, ?_⟩
    intro other better offered
    have worse := best _ ((mem_candidates listing.consistent other better).mpr offered)
    simp only [Preferred, not_or, not_and, not_lt] at worse
    exact worse

-- The same is offered where only unusable interfaces are added.
theorem offered_adds {listing larger : Listing digitLimit} (adds : listing.Adds larger) (index : Nat)
    (address : Text) : Offered larger.text index address ↔ Offered listing.text index address := by
  obtain ⟨added, parts, masked⟩ := adds
  have mem : ∀ property, property ∈ larger.properties ↔
      property ∈ listing.properties ∨ property ∈ added.flatMap netProperties := by
    intro property
    rw [properties, (parts.flatMap_right netProperties).mem_iff, List.flatMap_append,
      List.mem_append, properties]
  constructor
  · rintro ⟨shown, ipv4, usable, unmasked⟩
    rw [properties_eq] at shown unmasked
    have kept : ⟨index, false, address⟩ ∈ listing.properties := by
      refine ((mem _).mp shown).resolve_right fun extra => ?_
      obtain ⟨name, named, virtual⟩ | ⟨other, held, unreachable⟩ := (masked _ extra).1
      · rw [unmasked name named] at virtual
        cases virtual
      · have same := larger.consistent index false address other
        rw [properties_eq] at same
        rw [← same shown held, usable] at unreachable
        cases unreachable
    refine ⟨by rwa [properties_eq], ipv4, usable, fun name named => ?_⟩
    rw [properties_eq] at named
    exact unmasked name ((mem _).mpr (.inl named))
  · rintro ⟨shown, ipv4, usable, unmasked⟩
    rw [properties_eq] at shown unmasked
    have kept : ⟨index, false, address⟩ ∈ netProperties larger.text := by
      rw [properties_eq]
      exact (mem _).mpr (.inl shown)
    refine ⟨kept, ipv4, usable, fun name named => ?_⟩
    rw [properties_eq] at named
    refine unmasked name (((mem _).mp named).resolve_right fun extra => ?_)
    exact (masked _ extra).2 _ shown rfl

theorem selected_adds {listing larger : Listing digitLimit} (adds : listing.Adds larger) (hostLan : Text) :
    larger.selected hostLan = listing.selected hostLan := by
  have same : candidates larger.text = candidates listing.text := by
    refine (candidates_sorted larger.text).eq_of_mem_iff (candidates_sorted listing.text) ?_
    rintro ⟨index, address⟩
    rw [mem_candidates larger.consistent, mem_candidates listing.consistent, offered_adds adds]
  rw [selected_eq, selected_eq, selectLanAddress_chosen, selectLanAddress_chosen, same]

end Listing

theorem selection_characterised {digitLimit : Option Nat} (listing : Listing digitLimit)
    (hostLan : Text) :
    (∃ address, listing.selected hostLan = .ok address ∧ listing.Best hostLan address) ∧
      ∀ larger, listing.Adds larger → larger.selected hostLan = listing.selected hostLan :=
  ⟨listing.selected_best hostLan, fun _ adds => Listing.selected_adds adds hostLan⟩

def stockLines : List Text :=
  ["/VirtualBox/GuestInfo/Net/10/V4/IP = '192.168.1.20' @ 2026-02-01T00:00:00Z".toList,
    "/VirtualBox/GuestInfo/Net/9/Name = 'docker0'".toList,
    "/VirtualBox/GuestInfo/Net/9/V4/IP = '172.17.0.1'".toList, "/VirtualBox/GuestInfo/OS".toList]

def stockListing : Listing (some 4300) where
  lines := stockLines
  closed := by
    have complete : ∀ line ∈ stockLines, ∀ suffix ∈ line.tails,
        (afterPrefix? pathText suffix).isSome → (netMatchAt suffix).isSome := by
      decide +kernel
    exact fun line member => closed_of_read (complete line member)
  converted := by decide +kernel
  single := by decide +kernel

example : stockListing.selected "192.168.1.5".toList = .ok "192.168.1.20".toList :=
  (stockListing.selected_eq _).trans (by decide +kernel)

/-- A property whose value is on the next line. -/
def brokenLines : List Text :=
  ["/VirtualBox/GuestInfo/Net/0/V4/IP".toList, " = '10.0.0.5'".toList]

def longIndex (count : Nat) : NetMatch :=
  ⟨List.replicate count '1', false, "10.0.0.5".toList⟩

def longLine (count : Nat) : Text :=
  pathText ++ tailText (longIndex count).digits [' '] [' '] false (longIndex count).value

theorem netMatches_longLine {count : Nat} (positive : 0 < count) :
    netMatches (longLine count) = [longIndex count] := by
  have digits : ∀ c ∈ (longIndex count).digits, isDecimal c = true := by
    intro c member
    rw [List.eq_of_mem_replicate member]
    decide
  have some_digits : (longIndex count).digits ≠ [] := by
    simp [longIndex, positive.ne']
  have blank : [' '] ≠ [] ∧ ∀ c ∈ [' '], isSpace c = true :=
    ⟨List.cons_ne_nil _ _, List.forall_mem_singleton.mpr (by decide)⟩
  have read : propertyTail (tailText (longIndex count).digits [' '] [' '] false
      (longIndex count).value) = some (longIndex count, []) :=
    written_propertyTail ⟨[' '], [' '], (List.append_nil _).symm, ⟨some_digits, digits⟩,
      blank, blank, by simp [longIndex]⟩
  have found : netMatchAt (longLine count) = some (longIndex count, []) := by
    rw [netMatchAt_eq, longLine, afterPrefix?_eq_some.mpr rfl, Option.bind_some, read]
  rw [netMatches_found found]
  rfl

theorem longLine_refused {limit count : Nat} (long : limit < count) :
    ∃ text, readProperties (some limit) (netMatches (longLine count)) = .error text := by
  have refused : withinLimit (some limit) (longIndex count).digits = false := by
    simp [withinLimit, longIndex, long]
  rw [netMatches_longLine (Nat.zero_lt_of_lt long), readProperties, intOf, refused]
  exact ⟨_, rfl⟩

/-- Two lines without a property whose order matters, and a property alone in its line whose index
is not converted. -/
theorem broken_lines_ordered :
    (brokenLines.map netMatches = [[], []] ∧
      (readProperties (some 4300) (netMatches (['\n'].intercalate brokenLines))).map
          (fun properties => selectLanAddress (interfacesOf properties) []) ≠
        (readProperties (some 4300) (netMatches (['\n'].intercalate brokenLines.reverse))).map
          fun properties => selectLanAddress (interfacesOf properties) []) ∧
      netMatches (longLine 4301) = [longIndex 4301] ∧
        ∃ text, readProperties (some 4300) (netMatches (longLine 4301)) = .error text := by
  refine ⟨⟨by decide +kernel, ?_⟩, netMatches_longLine (by decide), longLine_refused (by decide)⟩
  rw [readProperties_eq_ok.mpr ⟨by decide +kernel, rfl⟩,
    readProperties_eq_ok.mpr ⟨by decide +kernel, rfl⟩]
  intro same
  exact absurd (Except.ok.inj same) (by decide +kernel)

end VmDeploy.VirtualBox
