import NetProfile.OrderedMap

/-!
# Network definitions

The model that profiles are imported into and documents are read into and
written from: one definition describes one connection, whatever manages it.

## Main definitions

- `Kind` — the kind of device, which selects the section of a document
- `Backend` — the manager that consumes a definition
- `Settings` — the settings that only NetworkManager understands
- `AccessPoint`, `WifiMode` — wireless networks
- `Definition` — a connection with all its settings

## Design notes

A setting that a definition does not model is kept as a `group.key` pair in
`Settings.passthrough`, in the order in which it was met.
-/

namespace NetProfile

/-- The kind of device that a definition configures. -/
inductive Kind where
  | ethernet
  | wifi
  | modem
  | bridge
  | bond
  | vlan
  | tunnel
  /-- A kind without a model of its own: all its settings are passed through. -/
  | other
  deriving DecidableEq, Repr, Inhabited

namespace Kind

/-- Every kind. -/
def all : List Kind := [ethernet, wifi, modem, bridge, bond, vlan, tunnel, other]

/-- The document section that holds definitions of this kind. -/
def keyword : Kind → String
  | ethernet => "ethernets"
  | wifi => "wifis"
  | modem => "modems"
  | bridge => "bridges"
  | bond => "bonds"
  | vlan => "vlans"
  | tunnel => "tunnels"
  | other => "others"

/-- The kind whose section is called `name`. -/
def ofKeyword? (name : String) : Option Kind := all.find? (fun kind => kind.keyword == name)

/-- Whether the kind stands for hardware, as opposed to a virtual device. -/
def isPhysical : Kind → Bool
  | ethernet | wifi | modem => true
  | bridge | bond | vlan | tunnel | other => false

end Kind

/-- The manager that consumes a definition. -/
inductive Backend where
  | networkd
  | networkManager
  | openVSwitch
  deriving DecidableEq, Repr

namespace Backend

/-- Definitions that name no backend belong to `networkd`. -/
instance : Inhabited Backend := ⟨networkd⟩

/-- The name of the backend as a `renderer` value. -/
def name : Backend → String
  | networkd => "networkd"
  | networkManager => "NetworkManager"
  | openVSwitch => "OpenVSwitch"

/-- The backend called `name`. -/
def ofName? (name : String) : Option Backend :=
  [networkd, networkManager, openVSwitch].find? (fun backend => backend.name == name)

end Backend

/-- A device selector. One without a name still matters: it says that the
definition is not bound to the device named like its id. -/
structure Selector where
  /-- The interface name that the device has to have. -/
  name : Option String := none
  deriving DecidableEq, Repr, Inhabited

/-- Modem parameters. -/
structure Modem where
  /-- Whether the parameters are looked up for the network. -/
  autoConfig : Bool := false
  apn : Option String := none
  deviceId : Option String := none
  networkId : Option String := none
  pin : Option String := none
  simId : Option String := none
  simOperatorId : Option String := none
  deriving DecidableEq, Repr, Inhabited

/-- Settings carried verbatim, named `group.key`. -/
abbrev Passthrough := OrderedMap String String

/-- The settings of a definition or of an access point that only NetworkManager
understands. -/
structure Settings where
  /-- The identity of the connection. -/
  uuid : Option String := none
  /-- The name of the connection that people read. -/
  name : Option String := none
  /-- All settings without a model. -/
  passthrough : Passthrough := ∅
  deriving DecidableEq, Repr, Inhabited

namespace Settings

/-- Whether there is nothing to write. -/
def isEmpty (s : Settings) : Bool := s.uuid.isNone && s.name.isNone && s.passthrough.isEmpty

end Settings

/-- How a wireless device takes part in a network. -/
inductive WifiMode where
  | infrastructure
  | ap
  | adhoc
  /-- A mode without a name in documents. -/
  | other
  deriving DecidableEq, Repr

namespace WifiMode

/-- Access points that name no mode are joined as a client. -/
instance : Inhabited WifiMode := ⟨infrastructure⟩

/-- The name of the mode in documents, for the modes that have one. -/
def name? : WifiMode → Option String
  | infrastructure => some "infrastructure"
  | ap => some "ap"
  | adhoc => some "adhoc"
  | other => none

/-- The mode called `name`; every unknown name is `other`. -/
def ofName (name : String) : WifiMode :=
  if name = "infrastructure" then infrastructure
  else if name = "ap" then ap
  else if name = "adhoc" then adhoc
  else other

end WifiMode

/-- A wireless network that a device may join or offer. -/
structure AccessPoint where
  ssid : String
  /-- Whether the network does not announce its name. -/
  hidden : Bool := false
  mode : WifiMode := .infrastructure
  settings : Settings := {}
  deriving DecidableEq, Repr, Inhabited

/-- A connection. -/
structure Definition where
  /-- The name of the definition, unique in a configuration. -/
  id : String
  kind : Kind
  backend : Backend
  selector : Option Selector := none
  wakeOnLan : Bool := false
  modem : Modem := {}
  settings : Settings := {}
  /-- Access points under their network names, used by wireless definitions. -/
  accessPoints : OrderedMap String AccessPoint := ∅
  deriving DecidableEq, Repr, Inhabited

namespace Definition

/-- Adds an access point under its network name; one of the same name is replaced. -/
def addAccessPoint (d : Definition) (ap : AccessPoint) : Definition :=
  { d with accessPoints := d.accessPoints.insert ap.ssid ap }

end Definition

end NetProfile
