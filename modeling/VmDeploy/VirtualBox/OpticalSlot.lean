import Mathlib.Data.List.Nodup
import VmDeploy.Encoding.Delimited
import VmDeploy.VirtualBox.Machines

/-! Which slot `optical_slot` finds in the listing of a machine with any storage layout. -/

set_option autoImplicit false

open Effects Python

namespace VmDeploy.VirtualBox

def isIso (path : Text) : Bool :=
  endsWith ".iso".toList (lower path)

structure IsoPath where
  text : Text
  oneLine : '\n' ∉ text
  iso : isIso text = true

/-- The path of a hard disk; the two words stand for no disk in a listing. -/
structure DiskPath where
  text : Text
  oneLine : '\n' ∉ text
  notIso : isIso text = false
  named : text ≠ "none".toList ∧ text ≠ "emptydrive".toList

inductive Medium where
  | free
  | emptyDrive
  | iso (path : IsoPath)
  | hardDisk (path : DiskPath)

def Medium.text : Medium → Text
  | .free => "none".toList
  | .emptyDrive => "emptydrive".toList
  | .iso path => path.text
  | .hardDisk path => path.text

def Medium.Optical : Medium → Prop
  | .emptyDrive | .iso _ => True
  | .free | .hardDisk _ => False

structure Slot where
  port : Nat
  device : Nat
  medium : Medium

structure Controller where
  name : Text
  slots : List Slot
  unquoted : '"' ∉ name
  oneLine : '\n' ∉ name
  places : (slots.map fun slot => (slot.port, slot.device)).Nodup

def Controller.IsIde (name : Text) : Prop :=
  "ide".toList <:+: lower name

structure Layout where
  controllers : List Controller
  distinct : (controllers.map Controller.name).Nodup

/-- The slots in controller, then line order, each with the name of its controller. -/
def Layout.slots (layout : Layout) : List (Text × Slot) :=
  layout.controllers.flatMap fun controller => controller.slots.map (controller.name, ·)

def First (test : Text × Slot → Prop) (slots : List (Text × Slot)) (slot : Text × Slot) : Prop :=
  test slot ∧ ∃ before after, slots = before ++ slot :: after ∧ ∀ other ∈ before, ¬ test other

def HoldsOptical (slot : Text × Slot) : Prop :=
  slot.2.medium.Optical

def IsFreeIde (slot : Text × Slot) : Prop :=
  slot.2.medium = .free ∧ Controller.IsIde slot.1

def Layout.Selects (layout : Layout) (slot : Text × Slot) : Prop :=
  First HoldsOptical layout.slots slot ∨
    (∀ other ∈ layout.slots, ¬ HoldsOptical other) ∧ First IsFreeIde layout.slots slot

def quoted (label value : Text) : Text :=
  '"' :: label ++ "\"=\"".toList ++ value ++ ['"']

def placed (name : Text) (port device : Nat) : Text :=
  name ++ '-' :: ((toString port).toList ++ '-' :: (toString device).toList)

/-- One line of the listing. A `detail` has a quoted label, as `"SATA-ImageUUID-0-0"`. -/
inductive InfoLine where
  | controller (index : Nat) (name : Text)
  | slot (name : Text) (held : Slot)
  | detail (label value : Text)
  | other (text : Text)

def InfoLine.text : InfoLine → Text
  | .controller index name =>
      "storagecontrollername".toList ++ ((toString index).toList ++ ("=\"".toList ++ (name ++ ['"'])))
  | .slot name held => quoted (placed name held.port held.device) held.medium.text
  | .detail label value => quoted label value
  | .other text => text

def InfoLine.controllerName : InfoLine → Option Text
  | .controller _ name => some name
  | _ => none

def InfoLine.slotOf (name : Text) : InfoLine → Option Slot
  | .slot owner held => if owner = name then some held else none
  | _ => none

/-- A detail names no medium; another line begins like neither of the two kinds. -/
def InfoLine.Formed : InfoLine → Prop
  | .controller _ _ | .slot _ _ => True
  | .detail label value =>
      ('"' ∉ label ∧ '\n' ∉ label ∧ '\n' ∉ value) ∧
        value ≠ "none".toList ∧ value ≠ "emptydrive".toList ∧ isIso value = false
  | .other text =>
      '\n' ∉ text ∧ text.head? ≠ some '"' ∧ ¬ "storagecontrollername".toList <+: text

/-- The lines print the layout: its controllers in order, and the slots of each in order. -/
structure Layout.Prints (layout : Layout) (lines : List InfoLine) : Prop where
  controllers : lines.filterMap InfoLine.controllerName = layout.controllers.map Controller.name
  slots : ∀ controller ∈ layout.controllers,
    lines.filterMap (InfoLine.slotOf controller.name) = controller.slots
  housed : ∀ name slot, .slot name slot ∈ lines → name ∈ layout.controllers.map Controller.name
  formed : ∀ line ∈ lines, line.Formed

def infoText (lines : List InfoLine) : Text :=
  (lines.map InfoLine.text).flatMap (· ++ ['\n'])

theorem isDecimal_hyphen : isDecimal '-' = false := by decide

theorem isDecimal_quote : isDecimal '"' = false := by decide

theorem isDecimal_lineFeed : isDecimal '\n' = false := by decide

theorem upToLastQuote_quoted (value : Text) : upToLastQuote (value ++ ['"']) = some value := by
  simp [upToLastQuote]

theorem upToLastQuote_eq_some {text value : Text} (read : upToLastQuote text = some value) :
    text = value ++ ['"'] := by
  unfold upToLastQuote at read
  split_ifs at read with closed
  cases read
  exact (List.dropLast_append_getLast? _ closed).symm

theorem digits_plain {c : Char} (plain : isDecimal c = false) (n : Nat) :
    c ∉ (toString n).toList := by
  intro member
  rw [digits_decimal n c member] at plain
  cases plain

theorem placed_plain {c : Char} (plain : isDecimal c = false) (other : c ≠ '-') {name : Text}
    (absent : c ∉ name) (port device : Nat) : c ∉ placed name port device := by
  have digits := digits_plain plain
  simp only [placed, List.mem_append, List.mem_cons, not_or]
  exact ⟨absent, other, digits port, other, digits device⟩

theorem attachmentOfLine_slot (name medium : Text) (port device : Nat) :
    attachmentOfLine name (quoted (placed name port device) medium) =
      some ⟨port, device, medium⟩ := by
  have line : quoted (placed name port device) medium = ('"' :: name ++ ['-']) ++
      ((toString port).toList ++ '-' :: ((toString device).toList ++ '"' ::
        ('=' :: '"' :: (medium ++ ['"'])))) := by
    simp [quoted, placed]
  have named := afterPrefix?_eq_some.mpr line
  have ports := someOf_append (digits_ne_nil port) (digits_decimal port) isDecimal_hyphen
    ((toString device).toList ++ '"' :: ('=' :: '"' :: (medium ++ ['"'])))
  have devices := someOf_append (digits_ne_nil device) (digits_decimal device) isDecimal_quote
    ('=' :: '"' :: (medium ++ ['"']))
  have hyphen : ∀ rest : Text, afterPrefix? ['-'] ('-' :: rest) = some rest := fun _ => rfl
  have equals : ∀ rest : Text, afterPrefix? "\"=\"".toList ('"' :: '=' :: '"' :: rest) = some rest :=
    fun _ => rfl
  simp only [attachmentOfLine, named, ports, devices, hyphen, equals, upToLastQuote_quoted,
    decimalNumber_digits, Option.bind_eq_bind, Option.bind_some]

-- A quoted line is read for a controller only if its label is a place of that controller.
theorem attachmentOfLine_quoted {name label value : Text} {attachment : Attachment}
    (unquoted : '"' ∉ name) (plain : '"' ∉ label)
    (read : attachmentOfLine name (quoted label value) = some attachment) :
    attachment.medium = value ∧ ∃ port device : Text, label = name ++ '-' :: (port ++ '-' :: device) ∧
      (∀ c ∈ port, isDecimal c = true) ∧ (∀ c ∈ device, isDecimal c = true) ∧
        attachment.port = decimalNumber port ∧ attachment.device = decimalNumber device := by
  simp only [attachmentOfLine, Option.bind_eq_bind] at read
  obtain ⟨afterName, named, read⟩ := Option.bind_eq_some_iff.mp read
  obtain ⟨⟨port, afterPort⟩, ports, read⟩ := Option.bind_eq_some_iff.mp read
  obtain ⟨afterHyphen, hyphen, read⟩ := Option.bind_eq_some_iff.mp read
  obtain ⟨⟨device, afterDevice⟩, devices, read⟩ := Option.bind_eq_some_iff.mp read
  obtain ⟨afterEquals, equals, read⟩ := Option.bind_eq_some_iff.mp read
  obtain ⟨medium, closed, read⟩ := Option.bind_eq_some_iff.mp read
  cases read
  dsimp only at hyphen equals
  obtain ⟨splitPort, -, decimalPort⟩ := someOf_eq_some ports
  obtain ⟨splitDevice, -, decimalDevice⟩ := someOf_eq_some devices
  have line := afterPrefix?_eq_some.mp named
  rw [splitPort, afterPrefix?_eq_some.mp hyphen, splitDevice, afterPrefix?_eq_some.mp equals,
    upToLastQuote_eq_some closed] at line
  have cut : label ++ '"' :: ('=' :: '"' :: (value ++ ['"'])) =
      (name ++ '-' :: (port ++ '-' :: device)) ++ '"' :: ('=' :: '"' :: (medium ++ ['"'])) := by
    simpa [quoted] using line
  have clean : '"' ∉ name ++ '-' :: (port ++ '-' :: device) := by
    have digits : ∀ run : Text, (∀ c ∈ run, isDecimal c = true) → '"' ∉ run := by
      intro run decimal member
      exact absurd (decimal _ member) (by decide)
    simp [unquoted, digits port decimalPort, digits device decimalDevice]
  obtain ⟨same, tail⟩ := Delimited.first_cut plain clean cut
  refine ⟨?_, port, device, same, decimalPort, decimalDevice, rfl, rfl⟩
  simpa using tail.symm

-- A slot is read for its own controller only.
theorem owner_eq {name owner port device : Text} {p d : Nat}
    (decimalPort : ∀ c ∈ port, isDecimal c = true) (decimalDevice : ∀ c ∈ device, isDecimal c = true)
    (same : placed owner p d = name ++ '-' :: (port ++ '-' :: device)) : owner = name := by
  have plain : ∀ run : Text, (∀ c ∈ run, isDecimal c = true) → '-' ∉ run := by
    intro run decimal member
    exact absurd (decimal _ member) (by decide)
  have regrouped : (owner ++ '-' :: (toString p).toList) ++ '-' :: (toString d).toList =
      (name ++ '-' :: port) ++ '-' :: device := by
    simpa [placed] using same
  obtain ⟨fronts, -⟩ := Delimited.last_cut (digits_plain isDecimal_hyphen d)
    (plain device decimalDevice) regrouped
  exact (Delimited.last_cut (digits_plain isDecimal_hyphen p) (plain port decimalPort) fronts).1

def Slot.shown (slot : Slot) : Attachment :=
  ⟨slot.port, slot.device, slot.medium.text⟩

def Attachment.telling (attachment : Attachment) : Bool :=
  attachment.optical || attachment.medium = "none".toList

theorem controllerOfLine_text {line : InfoLine} (formed : line.Formed) :
    controllerOfLine line.text = line.controllerName := by
  have unnamed : ∀ text : Text, ¬ "storagecontrollername".toList <+: text →
      controllerOfLine text = none := by
    intro text other
    cases named : afterPrefix? "storagecontrollername".toList text with
    | none => simp only [controllerOfLine, named, Option.bind_eq_bind, Option.bind_none]
    | some rest => exact absurd ⟨rest, (afterPrefix?_eq_some.mp named).symm⟩ other
  have label : ∀ label value : Text, controllerOfLine (quoted label value) = none := by
    intro label value
    exact unnamed _ fun ⟨_, starts⟩ => absurd (List.cons.inj starts).1 (by decide)
  cases line with
  | controller index name =>
    have named : afterPrefix? "storagecontrollername".toList (InfoLine.controller index name).text =
        some ((toString index).toList ++ '=' :: '"' :: (name ++ ['"'])) :=
      afterPrefix?_eq_some.mpr rfl
    have indexed := someOf_append (digits_ne_nil index) (digits_decimal index)
      (show isDecimal '=' = false by decide) ('"' :: (name ++ ['"']))
    have equals : ∀ rest : Text, afterPrefix? "=\"".toList ('=' :: '"' :: rest) = some rest :=
      fun _ => rfl
    simp only [controllerOfLine, named, indexed, equals, upToLastQuote_quoted,
      Option.bind_eq_bind, Option.bind_some, InfoLine.controllerName]
  | slot name held => exact label _ _
  | detail name value => exact label _ _
  | other text => exact unnamed text formed.2.2

theorem attachmentOfLine_text {line : InfoLine} (formed : line.Formed) {name : Text}
    (unquoted : '"' ∉ name) (housed : ∀ owner held, line = .slot owner held → '"' ∉ owner) :
    (attachmentOfLine name line.text).filter Attachment.telling =
      ((line.slotOf name).map Slot.shown).filter Attachment.telling := by
  have unread : ∀ text : Text, (∀ rest, text ≠ '"' :: rest) → attachmentOfLine name text = none := by
    intro text other
    cases named : afterPrefix? ('"' :: name ++ ['-']) text with
    | none => simp only [attachmentOfLine, named, Option.bind_eq_bind, Option.bind_none]
    | some rest => exact absurd (afterPrefix?_eq_some.mp named) (other _)
  cases line with
  | controller index owner =>
    have read : attachmentOfLine name (InfoLine.controller index owner).text = none :=
      unread _ fun rest same => absurd (List.cons.inj same).1 (by decide)
    rw [read]
    rfl
  | slot owner held =>
    have printed : (InfoLine.slot owner held).text =
        quoted (placed owner held.port held.device) held.medium.text := rfl
    rw [printed]
    by_cases own : owner = name
    · subst own
      have read : (InfoLine.slot owner held).slotOf owner = some held := if_pos rfl
      rw [attachmentOfLine_slot, read, Option.map_some, Slot.shown]
    · have read : (InfoLine.slot owner held).slotOf name = none := if_neg own
      rw [read]
      cases read : attachmentOfLine name (quoted (placed owner held.port held.device) _) with
      | none => rfl
      | some attachment =>
        obtain ⟨-, port, device, same, ports, devices, -⟩ :=
          attachmentOfLine_quoted unquoted
            (placed_plain isDecimal_quote (by decide) (housed owner held rfl) _ _) read
        exact absurd (owner_eq ports devices same) own
  | detail label value =>
    obtain ⟨⟨plain, -, -⟩, notFree, notEmpty, notIso⟩ := formed
    have printed : (InfoLine.detail label value).text = quoted label value := rfl
    have read : (InfoLine.detail label value).slotOf name = none := rfl
    rw [printed, read]
    cases read : attachmentOfLine name (quoted label value) with
    | none => rfl
    | some attachment =>
      obtain ⟨medium, -⟩ := attachmentOfLine_quoted unquoted plain read
      have silent : attachment.telling = false := by
        simp only [Attachment.telling, Attachment.optical, medium, Bool.or_eq_false_iff,
          decide_eq_false_iff_not]
        exact ⟨⟨notEmpty, notIso⟩, notFree⟩
      simp [Option.filter, silent]
  | other text =>
    have read : attachmentOfLine name (InfoLine.other text).text = none :=
      unread text fun rest same => formed.2.1 (by rw [same]; rfl)
    rw [read]
    rfl

section Listing

variable {layout : Layout} {lines : List InfoLine}

theorem text_oneLine (prints : layout.Prints lines) : ∀ text ∈ lines.map InfoLine.text, '\n' ∉ text := by
  have named : ∀ name ∈ layout.controllers.map Controller.name, '\n' ∉ name := by
    intro name member
    obtain ⟨controller, -, rfl⟩ := List.mem_map.mp member
    exact controller.oneLine
  have label : ∀ label value : Text, '\n' ∉ label → '\n' ∉ value → '\n' ∉ quoted label value := by
    intro label value plain clean
    simp only [quoted, List.mem_append, List.mem_cons, not_or]
    exact ⟨⟨⟨⟨by decide, plain⟩, by decide⟩, clean⟩, by decide, List.not_mem_nil⟩
  intro text member
  obtain ⟨line, listed, rfl⟩ := List.mem_map.mp member
  cases line with
  | controller index name =>
    have shown : name ∈ lines.filterMap InfoLine.controllerName :=
      List.mem_filterMap.mpr ⟨_, listed, rfl⟩
    have plain := named name (prints.controllers ▸ shown)
    have printed : (InfoLine.controller index name).text = "storagecontrollername".toList ++
        ((toString index).toList ++ ("=\"".toList ++ (name ++ ['"']))) := rfl
    rw [printed]
    simp only [List.mem_append, List.mem_singleton, not_or]
    exact ⟨by decide, digits_plain isDecimal_lineFeed index, by decide, plain, by decide⟩
  | slot name held =>
    have plain := named name (prints.housed name held listed)
    have medium : '\n' ∉ held.medium.text := by
      cases held.medium with
      | free => decide
      | emptyDrive => decide
      | iso path => exact path.oneLine
      | hardDisk path => exact path.oneLine
    exact label _ _ (placed_plain isDecimal_lineFeed (by decide) plain _ _) medium
  | detail name value =>
    obtain ⟨⟨-, plain, clean⟩, -⟩ := prints.formed _ listed
    exact label name value plain clean
  | other text => exact (prints.formed _ listed).1

theorem patternLines_listing (prints : layout.Prints lines) :
    patternLines (infoText lines) = lines.map InfoLine.text ++ [[]] :=
  patternLines_terminated (text_oneLine prints)

theorem controllers_read (prints : layout.Prints lines) :
    (patternLines (infoText lines)).filterMap controllerOfLine =
      layout.controllers.map Controller.name := by
  rw [patternLines_listing prints, List.filterMap_append, ← prints.controllers, List.filterMap_map]
  have each : ∀ line ∈ lines, (controllerOfLine ∘ InfoLine.text) line = line.controllerName :=
    fun line listed => controllerOfLine_text (prints.formed line listed)
  rw [List.filterMap_congr each]
  exact List.append_nil _

theorem slots_read (prints : layout.Prints lines) {controller : Controller}
    (listed : controller ∈ layout.controllers) :
    ((patternLines (infoText lines)).filterMap (attachmentOfLine controller.name)).filter
        Attachment.telling =
      (controller.slots.map Slot.shown).filter Attachment.telling := by
  have owners : ∀ owner held, .slot owner held ∈ lines → '"' ∉ owner := by
    intro owner held printed
    obtain ⟨other, -, rfl⟩ := List.mem_map.mp (prints.housed owner held printed)
    exact other.unquoted
  have each : ∀ line ∈ lines,
      (attachmentOfLine controller.name line.text).filter Attachment.telling =
        ((line.slotOf controller.name).map Slot.shown).filter Attachment.telling := by
    intro line printed
    refine attachmentOfLine_text (prints.formed line printed) controller.unquoted ?_
    rintro owner held rfl
    exact owners owner held printed
  rw [patternLines_listing prints, List.filterMap_append, ← prints.slots controller listed]
  have last : List.filterMap (attachmentOfLine controller.name) [[]] = [] := rfl
  rw [last, List.append_nil, List.filterMap_map, List.map_filterMap, List.filter_filterMap,
    List.filter_filterMap]
  exact List.filterMap_congr each

-- What is read tells the layout, up to attachments that decide nothing.
theorem attachments_telling (prints : layout.Prints lines) :
    (attachments (infoText lines)).filter (fun slot => slot.2.telling) =
      (layout.slots.map fun slot => (slot.1, slot.2.shown)).filter fun slot => slot.2.telling := by
  rw [attachments, controllers_read prints, List.flatMap_map, Layout.slots, List.map_flatMap,
    List.filter_flatMap, List.filter_flatMap]
  refine List.flatMap_congr ?_
  intro controller listed
  have read := congrArg (List.map (Prod.mk controller.name)) (slots_read prints listed)
  rw [List.map_map, List.filter_map, List.filter_map]
  rw [List.filter_map, List.map_map] at read
  exact read

theorem find?_read (prints : layout.Prints lines) {test : Text × Attachment → Bool}
    (tells : ∀ slot, test slot = true → slot.2.telling = true) :
    (attachments (infoText lines)).find? test =
      (layout.slots.find? fun slot => test (slot.1, slot.2.shown)).map
        fun slot => (slot.1, slot.2.shown) := by
  have narrow : ∀ slots : List (Text × Attachment),
      (slots.filter fun slot => slot.2.telling).find? test = slots.find? test := by
    intro slots
    have same : (fun slot : Text × Attachment => decide (slot.2.telling = true ∧ test slot = true)) =
        test := by
      funext slot
      cases passes : test slot with
      | true => simp [tells slot passes]
      | false => simp
    rw [List.find?_filter, same]
  rw [← narrow, attachments_telling prints, narrow, List.find?_map]
  rfl

end Listing

theorem Medium.optical_text (medium : Medium) :
    (medium.text = "emptydrive".toList ∨ isIso medium.text = true) ↔ medium.Optical := by
  cases medium with
  | free =>
    have other : ¬ (Medium.free.text = "emptydrive".toList ∨ isIso Medium.free.text = true) := by
      decide
    exact iff_of_false other id
  | emptyDrive => exact iff_of_true (.inl rfl) trivial
  | iso path => exact iff_of_true (.inr path.iso) trivial
  | hardDisk path =>
    refine iff_of_false ?_ id
    rintro (word | ends)
    · exact path.named.2 word
    · exact absurd ends (Bool.eq_false_iff.mp path.notIso)

theorem Medium.free_text (medium : Medium) : medium.text = "none".toList ↔ medium = .free := by
  cases medium with
  | free => exact iff_of_true rfl rfl
  | emptyDrive =>
    have other : ¬ Medium.emptyDrive.text = "none".toList := by decide
    exact iff_of_false other Medium.noConfusion
  | iso path =>
    refine iff_of_false ?_ Medium.noConfusion
    intro word
    have ends := path.iso
    rw [show path.text = "none".toList from word] at ends
    exact absurd ends (by decide)
  | hardDisk path => exact iff_of_false path.named.1 Medium.noConfusion

theorem optical_shown (slot : Slot) : slot.shown.optical = true ↔ slot.medium.Optical := by
  rw [← Medium.optical_text, Attachment.optical, Bool.or_eq_true, decide_eq_true_iff]
  rfl

theorem freeSlot_shown (slot : Text × Slot) :
    freeSlot (slot.1, slot.2.shown) = true ↔ IsFreeIde slot := by
  rw [freeSlot, Bool.and_eq_true, decide_eq_true_iff, containsText_iff, IsFreeIde,
    ← Medium.free_text]
  rfl

theorem find?_first {test : Text × Slot → Bool} {holds : Text × Slot → Prop}
    (tests : ∀ slot, test slot = true ↔ holds slot) {slots : List (Text × Slot)}
    {slot : Text × Slot} : slots.find? test = some slot ↔ First holds slots slot := by
  rw [List.find?_eq_some_iff_append, tests, First]
  simp [← tests]

def slotReply (vm : String) (result : ProcessResult) : Outcome PyError (String × Nat × Nat) :=
  ((opticalSlot vm).execute (fun op w => (HostOp.idle (.ok result) op, w)) ()).1

def placeOf (slot : Text × Slot) : String × Nat × Nat :=
  (String.ofList slot.1, slot.2.port, slot.2.device)

theorem slotReply_some {vm : String} {result : ProcessResult} (slot : Text × Attachment)
    (found : (((attachments result.stdout.toList).find? fun slot => slot.2.optical) <|>
      (attachments result.stdout.toList).find? freeSlot) = some slot) :
    slotReply vm result = .returned (String.ofList slot.1, slot.2.port, slot.2.device) := by
  simp only [slotReply, opticalSlot, run, ask, Prog.perform, Prog.bind_eq, Prog.bind, Prog.execute,
    HostOp.idle, completed, Bool.false_and, Bool.false_eq_true, if_false, found]
  rfl

theorem slotReply_none {vm : String} {result : ProcessResult}
    (absent : (((attachments result.stdout.toList).find? fun slot => slot.2.optical) <|>
      (attachments result.stdout.toList).find? freeSlot) = none) :
    ∃ text, slotReply vm result = .raised (.virtualBoxError ["showvminfo", vm] (-1) text) := by
  simp only [slotReply, opticalSlot, run, ask, Prog.perform, Prog.bind_eq, Prog.bind, Prog.execute,
    HostOp.idle, completed, Bool.false_and, Bool.false_eq_true, if_false, absent]
  exact ⟨_, rfl⟩

theorem find?_absent {test : Text × Slot → Bool} {holds : Text × Slot → Prop}
    (tests : ∀ slot, test slot = true ↔ holds slot) {slots : List (Text × Slot)} :
    slots.find? test = none ↔ ∀ other ∈ slots, ¬ holds other := by
  rw [List.find?_eq_none]
  simp [← tests]

theorem mem_slots {layout : Layout} {slot : Text × Slot} :
    slot ∈ layout.slots ↔ ∃ controller ∈ layout.controllers,
      controller.name = slot.1 ∧ slot.2 ∈ controller.slots := by
  obtain ⟨name, held⟩ := slot
  simp [Layout.slots, and_comm]

theorem placeOf_injective {layout : Layout} {first second : Text × Slot}
    (one : first ∈ layout.slots) (other : second ∈ layout.slots)
    (same : placeOf first = placeOf second) : first = second := by
  obtain ⟨controller, listed, named, held⟩ := mem_slots.mp one
  obtain ⟨controller', listed', named', held'⟩ := mem_slots.mp other
  simp only [placeOf, Prod.mk.injEq] at same
  have names : first.1 = second.1 := by
    simpa using congrArg String.toList same.1
  obtain rfl : controller = controller' :=
    List.inj_on_of_nodup_map layout.distinct listed listed' (by rw [named, named', names])
  have places := List.inj_on_of_nodup_map controller.places held held'
    (Prod.ext same.2.1 same.2.2)
  exact Prod.ext names places

theorem First.mem {test : Text × Slot → Prop} {slots : List (Text × Slot)} {slot : Text × Slot}
    (first : First test slots slot) : slot ∈ slots := by
  obtain ⟨-, before, after, rfl, -⟩ := first
  simp

theorem Layout.Selects.mem {layout : Layout} {slot : Text × Slot} (selects : layout.Selects slot) :
    slot ∈ layout.slots := by
  rcases selects with optical | ⟨-, free⟩
  · exact optical.mem
  · exact free.mem

theorem Layout.Selects.not_hardDisk {layout : Layout} {slot : Text × Slot}
    (selects : layout.Selects slot) (path : DiskPath) : slot.2.medium ≠ .hardDisk path := by
  intro disk
  rcases selects with ⟨optical, -⟩ | ⟨-, ⟨⟨free, -⟩, -⟩⟩
  · rw [HoldsOptical, disk] at optical
    exact optical
  · rw [free] at disk
    cases disk

-- The reply for a printed layout: the place of the slot that the layout selects, or a
-- `VirtualBoxError` when it selects none.
theorem slotReply_printed (vm : String) {layout : Layout} {lines : List InfoLine}
    (prints : layout.Prints lines) {result : ProcessResult}
    (printed : result.stdout.toList = infoText lines) :
    (∃ slot, layout.Selects slot ∧ slotReply vm result = .returned (placeOf slot)) ∨
      (∀ slot ∈ layout.slots, ¬ HoldsOptical slot ∧ ¬ IsFreeIde slot) ∧
        ∃ text, slotReply vm result = .raised (.virtualBoxError ["showvminfo", vm] (-1) text) := by
  have opticals := find?_read prints (show ∀ slot : Text × Attachment,
      slot.2.optical = true → slot.2.telling = true from
    fun slot optical => by rw [Attachment.telling, optical, Bool.true_or])
  have frees := find?_read prints (show ∀ slot : Text × Attachment,
      freeSlot slot = true → slot.2.telling = true from
    fun slot free => by
      rw [freeSlot, Bool.and_eq_true] at free
      rw [Attachment.telling, free.1, Bool.or_true])
  rw [← printed] at opticals frees
  have isOptical : ∀ slot : Text × Slot, slot.2.shown.optical = true ↔ HoldsOptical slot :=
    fun slot => optical_shown slot.2
  cases first : layout.slots.find? fun slot => slot.2.shown.optical with
  | some slot =>
    rw [first] at opticals
    refine .inl ⟨slot, .inl ((find?_first isOptical).mp first), slotReply_some (slot.1, slot.2.shown) ?_⟩
    rw [opticals]
    rfl
  | none =>
    have noOptical := (find?_absent isOptical).mp first
    rw [first] at opticals
    cases second : layout.slots.find? fun slot => freeSlot (slot.1, slot.2.shown) with
    | some slot =>
      rw [second] at frees
      refine .inl ⟨slot, .inr ⟨noOptical, (find?_first freeSlot_shown).mp second⟩, slotReply_some (slot.1, slot.2.shown) ?_⟩
      rw [opticals, frees]
      rfl
    | none =>
      have noFree := (find?_absent freeSlot_shown).mp second
      rw [second] at frees
      refine .inr ⟨fun slot member => ⟨noOptical slot member, noFree slot member⟩, slotReply_none ?_⟩
      rw [opticals, frees]
      rfl

open Classical in
theorem First.unique {test : Text × Slot → Prop} {slots : List (Text × Slot)}
    {one other : Text × Slot} (first : First test slots one) (second : First test slots other) :
    one = other := by
  have found := (find?_first fun _ => decide_eq_true_iff).mpr first
  rw [(find?_first fun _ => decide_eq_true_iff).mpr second] at found
  exact (Option.some.inj found).symm

theorem Layout.Selects.unique {layout : Layout} {one other : Text × Slot}
    (first : layout.Selects one) (second : layout.Selects other) : one = other := by
  rcases first with optical | ⟨none, free⟩
  · rcases second with optical' | ⟨none, -⟩
    · exact optical.unique optical'
    · exact absurd optical.1 (none one optical.mem)
  · rcases second with optical | ⟨-, free'⟩
    · exact absurd optical.1 (none other optical.mem)
    · exact free.unique free'

theorem Layout.Selects.serves {layout : Layout} {slot : Text × Slot} (selects : layout.Selects slot) :
    HoldsOptical slot ∨ IsFreeIde slot := by
  rcases selects with optical | ⟨-, free⟩
  · exact .inl optical.1
  · exact .inr free.1

def rootDisk : DiskPath where
  text := "/vms/disk.vmdk".toList
  oneLine := by decide
  notIso := rfl
  named := by decide

/-- An empty DVD drive beside a free slot, and the root disk on a second controller. -/
def applianceLayout : Layout where
  controllers := [
    { name := "IDE".toList, slots := [⟨0, 0, .emptyDrive⟩, ⟨0, 1, .free⟩],
      unquoted := by decide, oneLine := by decide, places := by decide },
    { name := "SATA".toList, slots := [⟨0, 0, .hardDisk rootDisk⟩],
      unquoted := by decide, oneLine := by decide, places := by decide }]
  distinct := by decide

def applianceLines : List InfoLine :=
  [.controller 0 "IDE".toList, .other "storagecontrollertype0=\"PIIX4\"".toList,
    .controller 1 "SATA".toList, .slot "IDE".toList ⟨0, 0, .emptyDrive⟩,
    .detail "IDE-IsEjected-0-0".toList "off".toList, .slot "IDE".toList ⟨0, 1, .free⟩,
    .slot "SATA".toList ⟨0, 0, .hardDisk rootDisk⟩]

theorem applianceLines_print : applianceLayout.Prints applianceLines where
  controllers := rfl
  slots := by
    intro controller listed
    simp only [applianceLayout, List.mem_cons, List.not_mem_nil, or_false] at listed
    rcases listed with rfl | rfl
    · rfl
    · rfl
  housed := by
    intro name slot listed
    simp only [applianceLines, List.mem_cons, List.not_mem_nil, or_false, reduceCtorEq, false_or,
      InfoLine.slot.injEq] at listed
    rcases listed with ⟨rfl, -⟩ | ⟨rfl, -⟩ | ⟨rfl, -⟩
    · simp [applianceLayout]
    · simp [applianceLayout]
    · simp [applianceLayout]
  formed := by
    intro line listed
    simp only [applianceLines, List.mem_cons, List.not_mem_nil, or_false] at listed
    rcases listed with rfl | rfl | rfl | rfl | rfl | rfl | rfl
    · trivial
    · simp only [InfoLine.Formed]
      decide
    · trivial
    · trivial
    · simp only [InfoLine.Formed]
      decide
    · trivial
    · trivial

end VmDeploy.VirtualBox
