import VmDeploy.VirtualBox.Address

/-! Which addresses `wait_for_guest_ip` may return for a guest that publishes its interfaces
bit by bit. -/

set_option autoImplicit false

open Effects Python

namespace VmDeploy.VirtualBox

def NetMatch.property (found : NetMatch) : NetProperty :=
  ⟨decimalNumber found.digits, found.isName, found.value⟩

/-- The properties of a listing, whatever the interpreter converts. -/
def netProperties (text : Text) : List NetProperty :=
  (netMatches text).map NetMatch.property

theorem readProperties_eq_ok {digitLimit : Option Nat} {found : List NetMatch}
    {properties : List NetProperty} :
    readProperties digitLimit found = .ok properties ↔
      (∀ one ∈ found, withinLimit digitLimit one.digits = true) ∧
        properties = found.map NetMatch.property := by
  induction found generalizing properties with
  | nil =>
    constructor
    · intro read
      cases read
      exact ⟨fun one none => absurd none List.not_mem_nil, rfl⟩
    · rintro ⟨-, rfl⟩
      rfl
  | cons head rest ih =>
    rw [readProperties, List.forall_mem_cons, List.map_cons]
    unfold intOf
    cases fits : withinLimit digitLimit head.digits with
    | false => simp [bind, Except.bind]
    | true =>
      cases read : readProperties digitLimit rest with
      | error text =>
        have refused : ¬ ∀ one ∈ rest, withinLimit digitLimit one.digits = true := fun all => by
          rw [ih.mpr ⟨all, rfl⟩] at read
          cases read
        simp [bind, Except.bind, refused]
      | ok properties =>
        obtain ⟨all, rfl⟩ := ih.mp read
        simp only [bind, Except.bind, pure, Except.pure, if_true, Except.ok.injEq, true_and]
        exact ⟨fun same => ⟨all, same.symm⟩, fun parts => parts.2.symm⟩

theorem get?_assigned (properties : List NetProperty) (found : Dict Nat Text) (index : Nat)
    (value : Text) :
    ((properties.foldl (fun found property => found.assign property.index property.value) found).get?
        index = some value →
      (∃ property ∈ properties, property.index = index ∧ property.value = value) ∨
        found.get? index = some value) ∧
    ((∃ property ∈ properties, property.index = index) ∨ (found.get? index).isSome →
      ((properties.foldl (fun found property => found.assign property.index property.value)
        found).get? index).isSome) := by
  induction properties generalizing found with
  | nil => simp
  | cons property rest ih =>
    obtain ⟨shown, kept⟩ := ih (found.assign property.index property.value)
    constructor
    · intro known
      rcases shown known with ⟨other, member, held⟩ | before
      · exact .inl ⟨other, List.mem_cons_of_mem _ member, held⟩
      · rw [Dict.get?_assign] at before
        split at before
        · next here => exact .inl ⟨property, List.mem_cons_self, here, Option.some.inj before⟩
        · exact .inr before
    · intro listed
      apply kept
      rw [Dict.get?_assign]
      rcases listed with ⟨other, member, here⟩ | before
      · rcases List.mem_cons.mp member with rfl | member
        · simp [here]
        · exact .inl ⟨other, member, here⟩
      · by_cases here : property.index = index
        · simp [here]
        · simp [here, before]

theorem netField_shown {isName : Bool} {properties : List NetProperty} {index : Nat} {value : Text}
    (known : (netField isName properties).get? index = some value) :
    ⟨index, isName, value⟩ ∈ properties := by
  rcases (get?_assigned _ [] index value).1 known with ⟨property, member, rfl, rfl⟩ | none
  · obtain ⟨member, same⟩ := List.mem_filter.mp member
    have kind : property.isName = isName := of_decide_eq_true same
    rw [← kind]
    exact member
  · cases none

theorem netField_known {isName : Bool} {properties : List NetProperty} {index : Nat} {value : Text}
    (shown : ⟨index, isName, value⟩ ∈ properties) :
    ((netField isName properties).get? index).isSome := by
  refine (get?_assigned _ [] index value).2 (.inl ⟨_, List.mem_filter.mpr ⟨shown, ?_⟩, rfl⟩)
  simp

def onSubnet (hostLan address : Text) : Bool :=
  hostLan ≠ [] && sameSlash24 address hostLan

def onCommonLan (address : Text) : Bool :=
  startsWith address "192.168." || startsWith address "10."

/-- The class of an address: in the host's /24, in a common LAN range, or any other. -/
def rank (hostLan address : Text) : Nat :=
  if onSubnet hostLan address then 0 else if onCommonLan address then 1 else 2

theorem rank_eq_zero {hostLan address : Text} :
    rank hostLan address = 0 ↔ onSubnet hostLan address = true := by
  unfold rank
  cases onSubnet hostLan address <;> cases onCommonLan address <;> simp

theorem rank_eq_one {hostLan address : Text} :
    rank hostLan address = 1 ↔
      onSubnet hostLan address = false ∧ onCommonLan address = true := by
  unfold rank
  cases onSubnet hostLan address <;> cases onCommonLan address <;> simp

theorem rank_le_two (hostLan address : Text) : rank hostLan address ≤ 2 := by
  unfold rank
  split_ifs <;> omega

/-- The first interface is the better choice: its class is lower, or its index in the same class. -/
def Preferred (hostLan : Text) (first second : Nat × Text) : Prop :=
  rank hostLan first.2 < rank hostLan second.2 ∨
    rank hostLan first.2 = rank hostLan second.2 ∧ first.1 < second.1

def chosen (hostLan : Text) (candidates : List Text) : Option Text :=
  candidates.find? (onSubnet hostLan) <|> candidates.find? onCommonLan <|>
    candidates.find? fun _ => true

theorem find?_least {test : Text → Bool} {entries : List (Nat × Text)}
    (sorted : entries.Pairwise fun a b => a.1 < b.1) {address : Text}
    (found : (entries.map Prod.snd).find? test = some address) :
    ∃ entry ∈ entries, entry.2 = address ∧ test address = true ∧
      ∀ other ∈ entries, test other.2 = true → entry.1 ≤ other.1 := by
  induction entries with
  | nil => cases found
  | cons head rest ih =>
    obtain ⟨first, sorted⟩ := List.pairwise_cons.mp sorted
    cases passes : test head.2 with
    | true =>
      rw [List.map_cons, List.find?_cons_of_pos passes] at found
      obtain rfl := Option.some.inj found
      refine ⟨head, List.mem_cons_self, rfl, passes, ?_⟩
      intro other member _
      rcases List.mem_cons.mp member with rfl | member
      · exact le_rfl
      · exact (first other member).le
    | false =>
      rw [List.map_cons, List.find?_cons_of_neg (by simp [passes])] at found
      obtain ⟨entry, member, same, held, least⟩ := ih sorted found
      refine ⟨entry, List.mem_cons_of_mem _ member, same, held, ?_⟩
      intro other listed tested
      rcases List.mem_cons.mp listed with rfl | listed
      · exact absurd tested (by simp [passes])
      · exact least other listed tested

theorem chosen_best {hostLan address : Text} {entries : List (Nat × Text)}
    (sorted : entries.Pairwise fun a b => a.1 < b.1)
    (picked : chosen hostLan (entries.map Prod.snd) = some address) :
    ∃ entry ∈ entries, entry.2 = address ∧ ∀ other ∈ entries, ¬ Preferred hostLan other entry := by
  have none_passes : ∀ {test : Text → Bool}, (entries.map Prod.snd).find? test = none →
      ∀ other ∈ entries, test other.2 = false := by
    intro test none other member
    simpa using List.find?_eq_none.mp none other.2 (List.mem_map_of_mem member)
  simp only [chosen, Option.orElse_eq_some] at picked
  have found : ∃ test, (entries.map Prod.snd).find? test = some address ∧
      (∀ other ∈ entries, rank hostLan other.2 < rank hostLan address → False) ∧
      (∀ other ∈ entries, rank hostLan other.2 = rank hostLan address → test other.2 = true) := by
    rcases picked with first | ⟨off, second | ⟨far, third⟩⟩
    · have class_eq : rank hostLan address = 0 := rank_eq_zero.mpr (List.find?_some first)
      rw [class_eq]
      exact ⟨_, first, fun _ _ => Nat.not_lt_zero _, fun _ _ => rank_eq_zero.mp⟩
    · have near := none_passes off
      have chosen_far : onSubnet hostLan address = false := by
        obtain ⟨entry, member, rfl⟩ := List.mem_map.mp (List.mem_of_find?_eq_some second)
        exact near entry member
      have class_eq : rank hostLan address = 1 := rank_eq_one.mpr ⟨chosen_far, List.find?_some second⟩
      rw [class_eq]
      refine ⟨_, second, ?_, fun _ _ same => (rank_eq_one.mp same).2⟩
      intro other member lower
      have subnet := rank_eq_zero.mp (Nat.lt_one_iff.mp lower)
      exact absurd subnet (by simp [near other member])
    · have near := none_passes off
      have common := none_passes far
      refine ⟨_, third, ?_, fun _ _ _ => rfl⟩
      intro other member lower
      have bound := rank_le_two hostLan address
      rcases (show rank hostLan other.2 = 0 ∨ rank hostLan other.2 = 1 by omega) with zero | one
      · exact absurd (rank_eq_zero.mp zero) (by simp [near other member])
      · exact absurd (rank_eq_one.mp one).2 (by simp [common other member])
  obtain ⟨test, found, lower, same⟩ := found
  obtain ⟨entry, member, rfl, -, least⟩ := find?_least sorted found
  refine ⟨entry, member, rfl, ?_⟩
  rintro other listed (better | ⟨alike, earlier⟩)
  · exact lower other listed better
  · exact absurd (least other listed (same other listed alike)) (by omega)

def indexedInterfaces (properties : List NetProperty) : List (Nat × Text × Text) :=
  let names := netField true properties
  let ips := netField false properties
  ((Dict.keys ips).insertionSort (· ≤ ·)).filterMap fun index => do
    let address ← ips.get? index
    if isIpv4 address then
      some (index, (names.get? index).getD s!"net{index}".toList, address)
    else none

theorem interfacesOf_indexed (properties : List NetProperty) :
    interfacesOf properties = (indexedInterfaces properties).map Prod.snd := by
  rw [interfacesOf, indexedInterfaces, List.map_filterMap]
  congr 1
  funext index
  cases (netField false properties).get? index with
  | none => rfl
  | some address => cases known : isIpv4 address <;> simp [known]

def candidates (stdout : Text) : List (Nat × Text) :=
  ((indexedInterfaces (netProperties stdout)).filter fun entry =>
    !isVirtualInterface entry.2.1 && isUsableAddress entry.2.2).map fun entry => (entry.1, entry.2.2)

theorem selectLanAddress_chosen (stdout hostLan : Text) :
    selectLanAddress (interfacesOf (netProperties stdout)) hostLan =
      (chosen hostLan ((candidates stdout).map Prod.snd)).getD [] := by
  have listed : ((interfacesOf (netProperties stdout)).filter fun entry =>
        !isVirtualInterface entry.1 && isUsableAddress entry.2).map Prod.snd =
      (candidates stdout).map Prod.snd := by
    rw [interfacesOf_indexed, candidates, List.filter_map, List.map_map, List.map_map]
    rfl
  have subnet : ∀ addresses : List Text,
      (if hostLan ≠ [] then addresses.find? (sameSlash24 · hostLan) else none) =
        addresses.find? (onSubnet hostLan) := by
    intro addresses
    by_cases unknown : hostLan = []
    · have fails : onSubnet hostLan = fun _ => false := by
        funext address
        simp [onSubnet, unknown]
      rw [fails, if_neg (not_not.mpr unknown)]
      exact (List.find?_eq_none.mpr fun _ _ => Bool.false_ne_true).symm
    · have same : onSubnet hostLan = (sameSlash24 · hostLan) := by
        funext address
        simp [onSubnet, unknown]
      rw [same, if_pos unknown]
  have head : ∀ addresses : List Text, addresses.head? = addresses.find? fun _ => true := by
    intro addresses
    cases addresses <;> rfl
  simp only [selectLanAddress, listed, chosen, ← subnet, ← head]
  rfl

theorem nodup_netField (isName : Bool) (properties : List NetProperty) :
    (Dict.keys (netField isName properties)).Nodup := by
  unfold netField
  suffices kept : ∀ found : Dict Nat Text, (Dict.keys found).Nodup →
      (Dict.keys ((properties.filter (·.isName = isName)).foldl
        (fun found property => found.assign property.index property.value) found)).Nodup from
    kept [] List.nodup_nil
  induction properties.filter (·.isName = isName) with
  | nil => exact fun _ distinct => distinct
  | cons property rest ih => exact fun found distinct => ih _ (Dict.nodup_assign distinct _ _)

theorem candidates_sorted (stdout : Text) :
    (candidates stdout).Pairwise fun a b => a.1 < b.1 := by
  have indexes : ((Dict.keys (netField false (netProperties stdout))).insertionSort (· ≤ ·)).Pairwise
      (· < ·) := by
    have distinct := (List.perm_insertionSort (· ≤ ·) _).nodup_iff.mpr
      (nodup_netField false (netProperties stdout))
    have ordered := List.pairwise_insertionSort (· ≤ ·)
      (Dict.keys (netField false (netProperties stdout)))
    exact (ordered.and distinct).imp fun both => lt_of_le_of_ne both.1 both.2
  have entries : (indexedInterfaces (netProperties stdout)).Pairwise fun a b => a.1 < b.1 := by
    refine indexes.filterMap _ ?_
    intro first second less entry made other made'
    obtain ⟨_, -, made⟩ := Option.bind_eq_some_iff.mp made
    obtain ⟨_, -, made'⟩ := Option.bind_eq_some_iff.mp made'
    split_ifs at made made'
    cases made
    cases made'
    exact less
  exact (entries.filter _).map _ fun _ _ less => less

structure Interface where
  name : Text
  address : Text
  deriving DecidableEq, Repr

abbrev Guest := Nat → Option Interface

def NetProperty.Truthful (guest : Guest) (property : NetProperty) : Prop :=
  ∃ interface, guest property.index = some interface ∧
    property.value = if property.isName then interface.name else interface.address

/-- What one request may meet: any listing of properties that are visible by then, any answer
of the resolver, any reading of the clock and any limit of the interpreter. -/
structure Sight (guest : Guest) where
  now : Nat
  digitLimit : Option Nat
  listing : Except RunFault ProcessResult
  truthful : ∀ result, listing = .ok result →
    ∀ property ∈ netProperties result.stdout.toList, property.Truthful guest
  answers : Except ResolveFault (List Text)

def sightStep (guest : Guest) (route : Except String Text) : Step hostSignature Unit (Sight guest)
  | x, .invoke _ _, w => (x.listing, w)
  | x, .monotonic, w => (x.now, w)
  | _, .routeSource, w => (route, w)
  | x, .getaddrinfo _, w => (x.answers, w)
  | x, .intMaxStrDigits, w => (x.digitLimit, w)
  | _, op, w => (HostOp.idle (.ok ⟨0, "", ""⟩) op, w)

/-- The value of `_host_lan_ipv4`. -/
def lanOf : Except String Text → Text
  | .ok address => if isIpv4 address then address else []
  | .error _ => []

def Guest.Virtual (guest : Guest) (address : Text) : Prop :=
  ∃ index interface, guest index = some interface ∧ isVirtualInterface interface.name = true ∧
    interface.address = address

/-- Neither loopback nor link-local, nor the address of a virtual interface. -/
def Guest.Reachable (guest : Guest) (address : Text) : Prop :=
  ¬ "127.".toList <+: address ∧ ¬ "169.254.".toList <+: address ∧ ¬ guest.Virtual address

/-- An interface that the listing shows with a usable address and not under a virtual name. -/
structure Offered (stdout : Text) (index : Nat) (address : Text) : Prop where
  shown : ⟨index, false, address⟩ ∈ netProperties stdout
  ipv4 : isIpv4 address = true
  usable : isUsableAddress address = true
  unmasked : ∀ name, ⟨index, true, name⟩ ∈ netProperties stdout → isVirtualInterface name = false

/-- A virtual address that is offered all the same is a worse choice than a physical one. -/
def Outshone (guest : Guest) (hostLan stdout : Text) : Prop :=
  ∀ index address, Offered stdout index address → guest.Virtual address →
    ∃ other better, Offered stdout other better ∧ ¬ guest.Virtual better ∧
      Preferred hostLan (other, better) (index, address)

/-- The condition on one request. -/
structure Sight.Clear {guest : Guest} (hostLan : Text) (x : Sight guest) : Prop where
  listing : ∀ result, x.listing = .ok result → Outshone guest hostLan result.stdout.toList
  answers : ∀ addresses, x.answers = .ok addresses → ∀ address,
    addresses.find? isIpv4 = some address → guest.Reachable address

theorem isUsableAddress_iff (address : Text) : isUsableAddress address = true ↔
    ¬ "127.".toList <+: address ∧ ¬ "169.254.".toList <+: address := by
  have starts : ∀ text : String, startsWith address text = true ↔ text.toList <+: address := by
    intro text
    rw [startsWith, Option.isSome_iff_exists]
    exact exists_congr fun rest => afterPrefix?_eq_some.trans eq_comm
  rw [isUsableAddress, Bool.not_eq_true', Bool.or_eq_false_iff, ← Bool.not_eq_true,
    ← Bool.not_eq_true, starts, starts]

-- Names that stand in for a missing one are not virtual.
theorem stand_in_physical (index : Nat) : isVirtualInterface s!"net{index}".toList = false := by
  have text : s!"net{index}".toList = 'n' :: 'e' :: 't' :: (toString index).toList :=
    String.toList_append
  have lowered : lower s!"net{index}".toList = 'n' :: lower ('e' :: 't' :: (toString index).toList) := by
    rw [text]
    rfl
  rw [isVirtualInterface, lowered]
  simp [virtualIfacePrefixes, startsWith, afterPrefix?]

def Consistent (properties : List NetProperty) : Prop :=
  ∀ index isName first second, ⟨index, isName, first⟩ ∈ properties →
    ⟨index, isName, second⟩ ∈ properties → first = second

theorem truthful_consistent {guest : Guest} {properties : List NetProperty}
    (truthful : ∀ property ∈ properties, property.Truthful guest) : Consistent properties := by
  intro index isName first second one other
  obtain ⟨interface, real, value⟩ := truthful _ one
  obtain ⟨interface', real', value'⟩ := truthful _ other
  obtain rfl := Option.some.inj (real.symm.trans real')
  exact value.trans value'.symm

-- The candidates of a consistent listing are what it offers.
theorem mem_candidates {stdout : Text} (consistent : Consistent (netProperties stdout))
    (index : Nat) (address : Text) : (index, address) ∈ candidates stdout ↔ Offered stdout index address := by
  have entry : (index, address) ∈ candidates stdout ↔
      (netField false (netProperties stdout)).get? index = some address ∧ isIpv4 address = true ∧
        isUsableAddress address = true ∧ isVirtualInterface
          (((netField true (netProperties stdout)).get? index).getD s!"net{index}".toList) = false := by
    simp only [candidates, indexedInterfaces, List.mem_map, List.mem_filter, List.mem_filterMap,
      List.mem_insertionSort, Bool.and_eq_true, Bool.not_eq_true']
    constructor
    · rintro ⟨_, ⟨⟨place, -, made⟩, physical, usable⟩, same⟩
      obtain ⟨shown, known, made⟩ := Option.bind_eq_some_iff.mp made
      split_ifs at made with ipv4
      cases made
      cases same
      exact ⟨known, ipv4, usable, physical⟩
    · rintro ⟨known, ipv4, usable, physical⟩
      have key : index ∈ Dict.keys (netField false (netProperties stdout)) :=
        (Dict.isSome_get? _ _).mp (by rw [known]; rfl)
      let name := ((netField true (netProperties stdout)).get? index).getD s!"net{index}".toList
      refine ⟨(index, name, address), ⟨⟨index, key, ?_⟩, physical, usable⟩, rfl⟩
      rw [known]
      exact if_pos ipv4
  rw [entry]
  constructor
  · rintro ⟨known, ipv4, usable, physical⟩
    refine ⟨netField_shown known, ipv4, usable, ?_⟩
    intro name shown
    obtain ⟨held, named⟩ := Option.isSome_iff_exists.mp (netField_known shown)
    rw [named, consistent _ _ _ _ (netField_shown named) shown] at physical
    exact physical
  · rintro ⟨shown, ipv4, usable, unmasked⟩
    obtain ⟨held, known⟩ := Option.isSome_iff_exists.mp (netField_known shown)
    rw [consistent _ _ _ _ (netField_shown known) shown] at known
    refine ⟨known, ipv4, usable, ?_⟩
    cases named : (netField true (netProperties stdout)).get? index with
    | none => exact stand_in_physical index
    | some name => exact unmasked name (netField_shown named)

theorem selected_reachable {guest : Guest} {hostLan stdout : Text}
    (truthful : ∀ property ∈ netProperties stdout, property.Truthful guest)
    (outshone : Outshone guest hostLan stdout)
    (found : selectLanAddress (interfacesOf (netProperties stdout)) hostLan ≠ []) :
    guest.Reachable (selectLanAddress (interfacesOf (netProperties stdout)) hostLan) := by
  have consistent := truthful_consistent truthful
  rw [selectLanAddress_chosen] at *
  cases picked : chosen hostLan ((candidates stdout).map Prod.snd) with
  | none => exact absurd (by rw [picked]; rfl) found
  | some address =>
    obtain ⟨⟨index, held⟩, member, rfl, best⟩ := chosen_best (candidates_sorted stdout) picked
    have offered := (mem_candidates consistent index held).mp member
    obtain ⟨away, routed⟩ := (isUsableAddress_iff held).mp offered.usable
    refine ⟨away, routed, fun foreign => ?_⟩
    obtain ⟨other, better, listed, -, preferred⟩ := outshone index held offered foreign
    exact best _ ((mem_candidates consistent other better).mpr listed) preferred

section Runs

variable {guest : Guest} {route : Except String Text}

abbrev clearStep (guest : Guest) (route : Except String Text) :
    Step hostSignature Unit { x : Sight guest // x.Clear (lanOf route) } :=
  fun x => sightStep guest route x.1

theorem ends_guestIpv4Interfaces (vm : String) :
    Always (clearStep guest route) (guestIpv4Interfaces vm) () (Ends (fun _ => True)
      fun interfaces _ => selectLanAddress interfaces (lanOf route) ≠ [] →
        guest.Reachable (selectLanAddress interfaces (lanOf route))) := by
  refine always_call trivial ?_
  rintro ⟨x, clear⟩
  simp only [clearStep, sightStep]
  cases listed : x.listing with
  | error fault => cases fault <;> exact always_raise trivial
  | ok result =>
    change Always _ (if result.ok then _ else _) _ _
    split
    · refine always_call trivial fun y => ?_
      dsimp only [Prog.bind, clearStep, sightStep]
      split
      · next properties read =>
        obtain ⟨-, rfl⟩ := readProperties_eq_ok.mp read
        exact always_done
          (selected_reachable (x.truthful result listed) (clear.listing result listed))
      · exact always_raise trivial
    · have nothing : selectLanAddress [] (lanOf route) = [] := by simp [selectLanAddress]
      exact always_done fun found => absurd nothing found

theorem ends_resolveIpv4 (hostname : String) :
    Always (clearStep guest route) (resolveIpv4 hostname) () (Ends (fun _ => True)
      fun resolved _ => resolved ≠ [] → guest.Reachable resolved) := by
  refine always_call trivial ?_
  rintro ⟨x, clear⟩
  simp only [clearStep, sightStep]
  cases answered : x.answers with
  | error fault =>
    cases fault with
    | gaierror => exact always_done fun none => absurd rfl none
    | unicodeError text => exact always_raise trivial
  | ok addresses =>
    refine always_done ?_
    cases first : addresses.find? isIpv4 with
    | none => exact fun none => absurd rfl none
    | some address => exact fun _ => clear.answers addresses answered address first

theorem ends_pollAddress (vm hostname : String) (deadline polls : Nat) :
    Always (clearStep guest route) (pollAddress vm hostname (lanOf route) deadline polls) ()
      (Ends (fun _ => True) fun address _ => address ≠ [] → guest.Reachable address) := by
  induction polls with
  | zero => exact always_halt trivial
  | succ polls ih =>
    refine always_call trivial fun x => ?_
    change Always _ (if x.1.now < deadline then _ else _) _ _
    split
    · refine ends_bind (ends_guestIpv4Interfaces vm) ?_
      intro interfaces _ reachable
      dsimp only
      split
      · exact always_done reachable
      · refine ends_bind (ends_resolveIpv4 hostname) ?_
        intro resolved _ reached
        split
        · exact always_done reached
        · exact always_call trivial fun _ => ih
    · exact always_done fun none => absurd rfl none

theorem ends_waitForGuestIp (polls : Nat) (vm hostname : String) (timeoutSeconds : Nat) :
    Always (clearStep guest route) (waitForGuestIp polls vm hostname timeoutSeconds) ()
      (Ends (fun _ => True) fun address _ => guest.Reachable address.toList) := by
  have lan : Always (clearStep guest route) hostLanIpv4 ()
      (Ends (fun _ => True) fun address _ => address = lanOf route) := by
    refine always_call trivial fun x => ?_
    change Always _ (match route with | .ok address => _ | .error _ => _) _ _
    cases route with
    | error text => exact always_done rfl
    | ok address => exact always_done rfl
  refine ends_bind lan ?_
  rintro _ _ rfl
  refine ends_bind ends_any fun started _ _ => ?_
  refine ends_bind (ends_pollAddress vm hostname _ polls) ?_
  intro address _ reachable
  split
  · next found =>
    refine always_done ?_
    rw [Ends, String.toList_ofList]
    exact reachable found
  · exact always_raise trivial

/-- When every listing that offers an address of a virtual interface offers a better choice, and
the resolver answers with reachable addresses only, the address that is returned is reachable. -/
theorem returned_address_reachable (polls : Nat) (vm hostname : String) (timeoutSeconds : Nat)
    {script : List (Sight guest)} (clear : ∀ x ∈ script, x.Clear (lanOf route)) {address : String}
    (returned : ((waitForGuestIp polls vm hostname timeoutSeconds).eval (sightStep guest route) ()
      script).1 = .returned address) : guest.Reachable address.toList := by
  have ended := (ends_waitForGuestIp polls vm hostname timeoutSeconds).eval_of_forall clear
  rw [returned] at ended
  exact ended

-- The first listing that offers an address ends the wait.
theorem selected_at_once {x : Sight guest} {hostLan : Text} {stdout : String}
    {properties : List NetProperty} {vm hostname : String} {timeoutSeconds : Nat}
    (lan : isIpv4 hostLan = true) (listing : x.listing = .ok ⟨0, stdout, ""⟩)
    (read : readProperties x.digitLimit (netMatches stdout.toList) = .ok properties)
    (selected : selectLanAddress (interfacesOf properties) hostLan ≠ [])
    (waits : 0 < timeoutSeconds) (polls : Nat) (rest : List (Sight guest)) :
    (waitForGuestIp (polls + 1) vm hostname timeoutSeconds).eval (sightStep guest (.ok hostLan)) ()
        (x :: x :: x :: x :: x :: rest) =
      (.returned (String.ofList (selectLanAddress (interfacesOf properties) hostLan)), ()) := by
  have early : x.now < x.now + 1000 * timeoutSeconds := by omega
  simp only [waitForGuestIp, hostLanIpv4, ask, Prog.bind_eq, Prog.bind, Prog.perform, Prog.pure_eq,
    Prog.eval, sightStep, lan, pollAddress, early, if_pos, guestIpv4Interfaces, run, completed, listing,
    ProcessResult.ok, read, selected, ne_eq, not_false_eq_true, Bool.false_and, beq_self_eq_true,
    Bool.false_eq_true, if_false]

end Runs

instance (guest : Guest) (property : NetProperty) : Decidable (property.Truthful guest) :=
  decidable_of_iff ((guest property.index).any fun interface =>
      property.value = if property.isName then interface.name else interface.address) (by
    rw [Option.any_eq_true]
    exact exists_congr fun interface => and_congr_right fun _ => decide_eq_true_iff)

def bridgedGuest : Guest := fun index =>
  if index = 0 then some ⟨"docker0".toList, "172.17.0.1".toList⟩
  else if index = 1 then some ⟨"enp0s3".toList, "192.168.1.20".toList⟩
  else none

def property (path value : String) : String :=
  s!"/VirtualBox/GuestInfo/Net/{path} = '{value}' @ 2026-02-01T00:00:00Z\n"

def bridgeAddress : String :=
  property "0/V4/IP" "172.17.0.1"

def wholeListing : String :=
  property "0/Name" "docker0" ++ bridgeAddress ++ property "1/Name" "enp0s3" ++
    property "1/V4/IP" "192.168.1.20"

theorem property_toList (path value : String) : (property path value).toList =
    "/VirtualBox/GuestInfo/Net/".toList ++ path.toList ++ " = '".toList ++ value.toList ++
      "' @ 2026-02-01T00:00:00Z\n".toList := by
  unfold property
  rw [String.toList_append, String.toList_append, String.toList_append, String.toList_append]
  rfl

theorem bridge_matches : netMatches bridgeAddress.toList = [⟨['0'], false, "172.17.0.1".toList⟩] := by
  rw [bridgeAddress, property_toList]
  rfl

theorem whole_matches : netMatches wholeListing.toList =
    [⟨['0'], true, "docker0".toList⟩, ⟨['0'], false, "172.17.0.1".toList⟩,
      ⟨['1'], true, "enp0s3".toList⟩, ⟨['1'], false, "192.168.1.20".toList⟩] := by
  rw [wholeListing, bridgeAddress, String.toList_append, String.toList_append, String.toList_append,
    property_toList, property_toList, property_toList, property_toList]
  decide +kernel

theorem whole_shown : netProperties wholeListing.toList =
    [⟨0, true, "docker0".toList⟩, ⟨0, false, "172.17.0.1".toList⟩,
      ⟨1, true, "enp0s3".toList⟩, ⟨1, false, "192.168.1.20".toList⟩] := by
  rw [netProperties, whole_matches]
  rfl

def sees (stdout : String)
    (truthful : ∀ property ∈ netProperties stdout.toList, property.Truthful bridgedGuest) :
    Sight bridgedGuest where
  now := 0
  digitLimit := some 4300
  listing := .ok ⟨0, stdout, ""⟩
  truthful := by
    intro result same
    cases same
    exact truthful
  answers := .error .gaierror

theorem sees_returns {stdout address : String}
    {truthful : ∀ property ∈ netProperties stdout.toList, property.Truthful bridgedGuest}
    {found : List NetMatch} (matched : netMatches stdout.toList = found)
    (short : ∀ one ∈ found, withinLimit (some 4300) one.digits = true)
    (selected : selectLanAddress (interfacesOf (found.map NetMatch.property)) "192.168.1.5".toList =
      address.toList)
    (visible : address.toList ≠ []) :
    ((waitForGuestIp 24 "apnode1" "apnode1" 300).eval
        (sightStep bridgedGuest (.ok "192.168.1.5".toList)) ()
        (List.replicate 9 (sees stdout truthful))).1 = .returned address := by
  have read : readProperties (sees stdout truthful).digitLimit (netMatches stdout.toList) =
      .ok (found.map NetMatch.property) :=
    readProperties_eq_ok.mpr ⟨matched ▸ short, congrArg _ matched.symm⟩
  have lan : isIpv4 "192.168.1.5".toList = true := rfl
  have returns := @selected_at_once bridgedGuest (sees stdout truthful) "192.168.1.5".toList stdout
    (found.map NetMatch.property) "apnode1" "apnode1" 300 lan rfl read (selected ▸ visible)
    (Nat.succ_pos 299) 23 (List.replicate 4 (sees stdout truthful))
  rw [selected, String.ofList_toList] at returns
  exact congrArg Prod.fst returns

def wholeSight : Sight bridgedGuest :=
  sees wholeListing (by
    rw [whole_shown]
    decide)

def bridgeSight : Sight bridgedGuest :=
  sees bridgeAddress (by
    rw [netProperties, bridge_matches]
    decide)

theorem wholeSight_clear : wholeSight.Clear (lanOf (.ok "192.168.1.5".toList)) := by
  constructor
  · intro result same
    cases same
    intro index address offered foreign
    exfalso
    have listed := offered.shown
    have unmasked := offered.unmasked
    simp only [whole_shown, List.mem_cons, NetProperty.mk.injEq, List.not_mem_nil] at listed unmasked
    rcases listed with ⟨-, named, -⟩ | ⟨rfl, -, -⟩ | ⟨-, named, -⟩ | ⟨rfl, -, rfl⟩ | none
    · cases named
    · exact absurd (unmasked "docker0".toList (.inl ⟨rfl, trivial, rfl⟩)) (by decide)
    · cases named
    · obtain ⟨other, interface, real, virtual, same⟩ := foreign
      unfold bridgedGuest at real
      split_ifs at real
      · cases real
        exact absurd same (by decide)
      · cases real
        exact absurd virtual (by decide)
    · exact none
  · intro addresses same
    cases same

theorem bridged_guest_reachable : bridgedGuest.Reachable "192.168.1.20".toList := by
  have returned : ((waitForGuestIp 24 "apnode1" "apnode1" 300).eval
      (sightStep bridgedGuest (.ok "192.168.1.5".toList)) () (List.replicate 9 wholeSight)).1 =
        .returned "192.168.1.20" := by
    refine sees_returns whole_matches ?_ ?_ ?_ <;> decide
  refine returned_address_reachable 24 "apnode1" "apnode1" 300 ?_ returned
  intro x member
  rw [List.eq_of_mem_replicate member]
  exact wholeSight_clear

/-- The bridge's address is visible before its name, and is returned. -/
theorem nameless_bridge_returned :
    ((waitForGuestIp 24 "apnode1" "apnode1" 300).eval
        (sightStep bridgedGuest (.ok "192.168.1.5".toList)) () (List.replicate 9 bridgeSight)).1 =
      .returned "172.17.0.1" ∧ ¬ bridgedGuest.Reachable "172.17.0.1".toList := by
  refine ⟨sees_returns bridge_matches ?_ ?_ ?_, ?_⟩
  · decide
  · decide
  · decide +kernel
  rintro ⟨-, -, physical⟩
  exact physical ⟨0, _, rfl, rfl, rfl⟩

end VmDeploy.VirtualBox
