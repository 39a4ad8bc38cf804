import NetProfile.Definition
import NetProfile.Log
import NetProfile.Yaml.Value

/-!
# Drafts of definitions

Definitions as they stand in documents: without an id and a kind, and with
everything that may be left out left out.

## Main definitions

- `Draft`, `DraftAccessPoint`, `DraftSettings`
- `Draft.toDefinition` — the definition
- `Draft.logs` — what is worth reporting about a draft
-/

namespace NetProfile

open Yaml (Value)

/-- Settings that only NetworkManager understands. -/
structure DraftSettings where
  uuid : Option String := none
  name : Option String := none
  /-- The settings passed through, under their names. -/
  passthrough : List (String × Value) := []
  deriving Inhabited

namespace DraftSettings

/-- The settings. Of those passed through, only scalars are kept. -/
def toSettings (s : DraftSettings) : Settings :=
  { uuid := s.uuid
    name := s.name
    passthrough := OrderedMap.ofList
      (s.passthrough.filterMap (fun entry => entry.2.scalarText?.map (fun text => (entry.1, text)))) }

/-- A warning for each setting that is not kept. -/
def logs (s : DraftSettings) : List LogRecord :=
  s.passthrough.filterMap (fun entry =>
    if entry.2.scalarText?.isNone then
      some (.warning ("passthrough value of '" ++ entry.1 ++ "' is not a scalar, skipping"))
    else none)

end DraftSettings

/-- An access point without its network name. -/
structure DraftAccessPoint where
  hidden : Option Bool := none
  /-- The name of the mode. -/
  mode : Option String := none
  settings : Option DraftSettings := none
  deriving Inhabited

namespace DraftAccessPoint

/-- The mode that is meant. -/
def wifiMode (ap : DraftAccessPoint) : WifiMode :=
  match ap.mode with
  | some name => WifiMode.ofName name
  | none => default

/-- The access point of the network `ssid`. -/
def toAccessPoint (ap : DraftAccessPoint) (ssid : String) : AccessPoint :=
  { ssid
    hidden := ap.hidden.getD false
    mode := ap.wifiMode
    settings := (ap.settings.getD {}).toSettings }

/-- What is worth reporting about the access point of the network `ssid` in the
definition `id`. -/
def logs (id ssid : String) (ap : DraftAccessPoint) : List LogRecord :=
  (if ap.wifiMode = .other then
    [LogRecord.debugging (id ++ ": unsupported AP mode for SSID " ++ ssid)]
  else [])
  ++ (ap.settings.getD {}).logs

end DraftAccessPoint

/-- A definition without its id and kind. -/
structure Draft where
  /-- The name of the backend. -/
  renderer : Option String := none
  selector : Option Selector := none
  wakeOnLan : Option Bool := none
  autoConfig : Option Bool := none
  apn : Option String := none
  deviceId : Option String := none
  networkId : Option String := none
  pin : Option String := none
  simId : Option String := none
  simOperatorId : Option String := none
  /-- The access points under their network names. -/
  accessPoints : List (String × DraftAccessPoint) := []
  settings : Option DraftSettings := none
  deriving Inhabited

/-- The warning about a backend that is not known by the name given. -/
def unknownBackendLogs (renderer : Option String) : List LogRecord :=
  match renderer with
  | some name =>
    if (Backend.ofName? name).isNone then
      [.warning ("unknown renderer '" ++ name ++ "', using the default")]
    else []
  | none => []

namespace Draft

/-- The modem parameters. -/
def modem (d : Draft) : Modem :=
  { autoConfig := d.autoConfig.getD false
    apn := d.apn
    deviceId := d.deviceId
    networkId := d.networkId
    pin := d.pin
    simId := d.simId
    simOperatorId := d.simOperatorId }

/-- The backend: the draft's own one if it is known, or else the one given. -/
def backend (d : Draft) (fallback : Option Backend) : Backend :=
  ((d.renderer.bind Backend.ofName?).or fallback).getD default

/-- The definition `id`; `fallback` is the backend of definitions that name none. -/
def toDefinition (d : Draft) (id : String) (kind : Kind) (fallback : Option Backend) :
    Definition :=
  let base : Definition :=
    { id
      kind
      backend := d.backend fallback
      selector := d.selector
      wakeOnLan := d.wakeOnLan.getD false
      modem := d.modem
      settings := (d.settings.getD {}).toSettings }
  (d.accessPoints.map (fun entry => entry.2.toAccessPoint entry.1)).foldl
    Definition.addAccessPoint base

/-- What is worth reporting about the definition `id`. -/
def logs (d : Draft) (id : String) : List LogRecord :=
  unknownBackendLogs d.renderer
  ++ (d.settings.getD {}).logs
  ++ d.accessPoints.flatMap (fun entry => entry.2.logs id entry.1)

end Draft

end NetProfile
