import Mathlib.Data.List.Sort
import VmDeploy.Python.Dict
import VmDeploy.VirtualBox.Machines

/-! How the address of a running guest is found. -/

set_option autoImplicit false

open Effects Python

namespace VmDeploy.VirtualBox

def virtualIfacePrefixes : List String :=
  ["docker", "br-", "veth", "virbr", "vboxnet", "lo", "tun", "tap", "cni", "flannel"]

/-- `\d{1,3}` between dots, four times. -/
def isDottedQuad (text : Text) : Bool :=
  let parts := text.splitOn '.'
  parts.length = 4 && parts.all fun part =>
    part.all isDecimal && 1 ≤ part.length && part.length ≤ 3

/-- `_IPV4_PATTERN` -/
def isIpv4 (text : Text) : Bool :=
  matchesToEnd isDottedQuad text

def startsWith (text : Text) (start : String) : Bool :=
  (afterPrefix? start.toList text).isSome

def isVirtualInterface (name : Text) : Bool :=
  virtualIfacePrefixes.any (startsWith (lower name))

def isUsableAddress (address : Text) : Bool :=
  !(startsWith address "127." || startsWith address "169.254.")

/-- `text.rsplit(".", 1)[0]` -/
def beforeLastDot (text : Text) : Text :=
  if '.' ∈ text then ((text.reverse.dropWhile (· ≠ '.')).drop 1).reverse else text

def sameSlash24 (left right : Text) : Bool :=
  beforeLastDot left = beforeLastDot right

def selectLanAddress (interfaces : List (Text × Text)) (hostLan : Text) : Text :=
  let candidates := (interfaces.filter fun entry =>
    !isVirtualInterface entry.1 && isUsableAddress entry.2).map Prod.snd
  let onSubnet := if hostLan ≠ [] then candidates.find? (sameSlash24 · hostLan) else none
  let onLan := candidates.find? fun address =>
    startsWith address "192.168." || startsWith address "10."
  (onSubnet <|> onLan <|> candidates.head?).getD []

/-- A match of `_NET_PROPERTY_PATTERN`. -/
structure NetMatch where
  digits : Text
  isName : Bool
  value : Text
  deriving DecidableEq, Repr

def netMatchAt (text : Text) : Option (NetMatch × Text) := do
  let rest ← afterPrefix? "/VirtualBox/GuestInfo/Net/".toList text
  let (digits, rest) ← someOf isDecimal rest
  let (isName, rest) ← ((afterPrefix? "/Name".toList rest).map fun rest => (true, rest)) <|>
    ((afterPrefix? "/V4/IP".toList rest).map fun rest => (false, rest))
  let (_, rest) ← someOf isSpace rest
  let rest ← afterPrefix? ['='] rest
  let (_, rest) ← someOf isSpace rest
  let rest ← afterPrefix? ['\''] rest
  let (value, rest) := rest.span (· ≠ '\'')
  let rest ← afterPrefix? ['\''] rest
  some (⟨digits, isName, value⟩, rest)

/-- `finditer`: a match resumes behind itself; every step consumes a character. -/
def netMatchesFrom : Nat → Text → List NetMatch
  | 0, _ | _, [] => []
  | steps + 1, c :: rest =>
      match netMatchAt (c :: rest) with
      | some (found, after) => found :: netMatchesFrom steps after
      | none => netMatchesFrom steps rest

def netMatches (text : Text) : List NetMatch :=
  netMatchesFrom text.length text

structure NetProperty where
  index : Nat
  isName : Bool
  value : Text
  deriving DecidableEq, Repr

/-- The properties with their indexes as numbers, or the text of the first `ValueError`. -/
def readProperties (digitLimit : Option Nat) : List NetMatch → Except String (List NetProperty)
  | [] => pure []
  | found :: rest => do
      let index ← intOf digitLimit found.digits
      let properties ← readProperties digitLimit rest
      pure (⟨index, found.isName, found.value⟩ :: properties)

/-- The values of one field by interface index; a later line replaces an earlier one. -/
def netField (isName : Bool) (properties : List NetProperty) : Dict Nat Text :=
  (properties.filter (·.isName = isName)).foldl
    (fun found property => found.assign property.index property.value) []

def interfacesOf (properties : List NetProperty) : List (Text × Text) :=
  let names := netField true properties
  let ips := netField false properties
  ((Dict.keys ips).insertionSort (· ≤ ·)).filterMap fun index => do
    let address ← ips.get? index
    if isIpv4 address then some ((names.get? index).getD s!"net{index}".toList, address) else none

def guestIpv4Interfaces (vm : String) : VBoxProg (List (Text × Text)) := do
  let result ← run (.guestpropertyEnumerate vm) false 120
  if result.ok then do
    let digitLimit ← ask .intMaxStrDigits
    match readProperties digitLimit (netMatches result.stdout.toList) with
    | .ok properties => pure (interfacesOf properties)
    | .error text => .raise (.valueError text)
  else
    pure []

def resolveIpv4 (hostname : String) : VBoxProg Text := do
  match ← ask (.getaddrinfo hostname) with
  | .ok addresses => pure ((addresses.find? isIpv4).getD [])
  | .error .gaierror => pure []
  | .error (.unicodeError text) => .raise (.valueError text)

def hostLanIpv4 : VBoxProg Text := do
  match ← ask .routeSource with
  | .ok address => pure (if isIpv4 address then address else [])
  | .error _ => pure []

/-- The polling loop of `wait_for_guest_ip`, empty at the deadline. -/
def pollAddress (vm hostname : String) (hostLan : Text) (deadline : Nat) : Nat → VBoxProg Text
  | 0 => .halt
  | polls + 1 => do
      let now ← ask .monotonic
      if now < deadline then do
        let interfaces ← guestIpv4Interfaces vm
        let selected := selectLanAddress interfaces hostLan
        if selected ≠ [] then
          pure selected
        else do
          let resolved ← resolveIpv4 hostname
          if resolved ≠ [] then
            pure resolved
          else do
            ask (.sleep pollIntervalMs)
            pollAddress vm hostname hostLan deadline polls
      else
        pure []

def waitForGuestIp (polls : Nat) (vm hostname : String) (timeoutSeconds : Nat) :
    VBoxProg String := do
  let hostLan ← hostLanIpv4
  let started ← ask .monotonic
  let address ← pollAddress vm hostname hostLan (started + 1000 * timeoutSeconds) polls
  if address ≠ [] then
    pure (String.ofList address)
  else
    .raise (.provisioningTimeoutError
      (s!"Could not determine a reachable IPv4 address for {vm} (hostname {hostname}) within " ++
        s!"{timeoutSeconds}s; check that the guest obtained a DHCP lease on its bridged adapter"))

end VmDeploy.VirtualBox
