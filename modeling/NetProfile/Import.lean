import NetProfile.Definition.ConnectionType
import NetProfile.Keyfile
import NetProfile.Log

/-!
# Importing profiles

Turns a connection profile into a definition. Every setting that the model has
a place for moves there and leaves the profile; all that is left in the end is
passed through under `group.key`.

## Main definitions

- `Keyfile.remaining` — the settings left in a profile, as passed through
- `Import` — a definition and the settings that could not be read
- `Keyfile.toDefinition` — the import

## Design notes

Each step takes the profile and returns it without what the step has dealt
with, so the order of the steps is the order of the removals.
-/

namespace NetProfile

namespace Keyfile

/-- The key that stands for a group without settings, so that the group is not lost. -/
def emptyGroupKey : String := "_"

/-- The name under which a setting is passed through. -/
def passthroughKey (group key : String) : String := group ++ "." ++ key

/-- The settings of one group as passed through; the value is absent where it
cannot be read. -/
def remainingOf (group : String) (entries : OrderedMap String String) :
    List (String × Option String) :=
  if entries.isEmpty then [(passthroughKey group emptyGroupKey, some "")]
  else entries.toList.map (fun entry =>
    (passthroughKey group entry.1, (unescape entry.2.toList).map String.ofList))

/-- All settings as passed through, in file order. -/
def remaining (kf : Keyfile) : List (String × Option String) :=
  kf.groups.toList.flatMap (fun group => remainingOf group.1 group.2)

/-- The readable settings, passed through. -/
def passthrough (kf : Keyfile) : Passthrough :=
  OrderedMap.ofList (kf.remaining.filterMap (fun entry => entry.2.map (fun value => (entry.1, value))))

/-- The names of the settings that cannot be read. -/
def unreadable (kf : Keyfile) : List String :=
  kf.remaining.filterMap (fun entry => if entry.2.isNone then some entry.1 else none)

/-- Takes the modem parameters. The setting that asks for automatic parameters
goes whatever its value is. -/
def takeModem (kf : Keyfile) : Modem × Keyfile :=
  let autoConfig := (kf.bool? "gsm" "auto-config").getD false
  let kf := kf.clear "gsm" "auto-config"
  let (apn, kf) := kf.take "gsm" "apn"
  let (deviceId, kf) := kf.take "gsm" "device-id"
  let (networkId, kf) := kf.take "gsm" "network-id"
  let (pin, kf) := kf.take "gsm" "pin"
  let (simId, kf) := kf.take "gsm" "sim-id"
  let (simOperatorId, kf) := kf.take "gsm" "sim-operator-id"
  ({ autoConfig, apn, deviceId, networkId, pin, simId, simOperatorId }, kf)

/-- Whether the device is woken over the network. The setting is a bit field
that stays in the profile; an ethernet group without it means yes. -/
def wakeOnLan (kf : Keyfile) : Bool :=
  kf.hasGroup "ethernet" &&
    (!kf.hasKey "ethernet" "wake-on-lan" ||
      decide (0 < (kf.word64? "ethernet" "wake-on-lan").getD 0))

/-- Takes the access point of a wireless profile, still without its settings. A
mode without a name in documents stays in the profile. -/
def takeAccessPoint (kf : Keyfile) : Except KeyfileError (AccessPoint × Keyfile) :=
  match kf.take "wifi" "ssid" with
  | (none, _) => .error .missingSsid
  | (some ssid, kf) =>
    let mode := ((kf.string? "wifi" "mode").map WifiMode.ofName).getD .infrastructure
    let kf :=
      if (kf.string? "wifi" "mode").isSome && mode.name?.isSome then kf.clear "wifi" "mode"
      else kf
    let hidden := (kf.bool? "wifi" "hidden").getD false
    .ok ({ ssid, hidden, mode }, kf.clear "wifi" "hidden")

end Keyfile

/-- The outcome of an import. -/
structure Import where
  definition : Definition
  /-- The settings that could not be read and are lost. -/
  unreadable : List String
  deriving DecidableEq, Repr, Inhabited

namespace Import

/-- A warning for each setting that is lost. -/
def logs (i : Import) : List LogRecord :=
  i.unreadable.map (fun name => .warning ("netplan: Keyfile: cannot read value of " ++ name))

/-- The definition with everything left in the profile passed through by it. -/
def ofRest (d : Definition) (kf : Keyfile) : Import :=
  { definition := { d with settings := { d.settings with passthrough := kf.passthrough } }
    unreadable := kf.unreadable }

/-- The definition with an access point that shares its identity and passes
through everything left in the profile. -/
def ofAccessPoint (d : Definition) (ap : AccessPoint) (kf : Keyfile) : Import :=
  { definition := d.addAccessPoint
      { ap with settings := { d.settings with passthrough := kf.passthrough } }
    unreadable := kf.unreadable }

end Import

namespace Keyfile

/-- Takes what every kind of profile but `other` has in common. -/
def takeCommon (kf : Keyfile) (d : Definition) : Definition × Keyfile :=
  let kf := if d.kind.absorbsConnectionType then kf.clear "connection" "type" else kf
  let (selector, kf) :=
    if d.kind.isPhysical then
      let (name, kf) := kf.take "connection" "interface-name"
      (some { name }, kf)
    else (none, kf)
  let (modem, kf) := kf.takeModem
  ({ d with selector, modem, wakeOnLan := kf.wakeOnLan }, kf)

/-- Imports a profile. The definition keeps the id `id?` if one is given and is
named after its uuid otherwise. -/
def toDefinition (kf : Keyfile) (id? : Option String) : Except KeyfileError Import :=
  match kf.string? "connection" "uuid", kf.string? "connection" "type" with
  | none, _ => .error (.missingKey "connection" "uuid")
  | some _, none => .error (.missingKey "connection" "type")
  | some uuid, some type =>
    let kind := Kind.ofConnectionType type
    let (name, kf) := (kf.clear "connection" "uuid").take "connection" "id"
    let d : Definition :=
      { id := id?.getD ("NM-" ++ uuid)
        kind
        backend := .networkManager
        settings := { uuid := some uuid, name } }
    if kind = .other then .ok (.ofRest d kf)
    else
      let (d, kf) := kf.takeCommon d
      if kind = .wifi then
        match kf.takeAccessPoint with
        | .error e => .error e
        | .ok (ap, kf) => .ok (.ofAccessPoint d ap kf)
      else .ok (.ofRest d kf)

end Keyfile

end NetProfile
