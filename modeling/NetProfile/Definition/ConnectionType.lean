import NetProfile.Definition

/-!
# Connection types

Profiles name their connection type in words of their own. Each type belongs to
one kind of definition, and most kinds say all that the type says.
-/

namespace NetProfile

namespace Kind

/-- The kind of definition for the connection type `name`. Ethernet and wireless
types have two spellings; a type without a model is of kind `other`. -/
def ofConnectionType (name : String) : Kind :=
  if name = "ethernet" ∨ name = "802-3-ethernet" then ethernet
  else if name = "wifi" ∨ name = "802-11-wireless" then wifi
  else if name = "gsm" ∨ name = "cdma" then modem
  else if name = "bridge" then bridge
  else if name = "bond" then bond
  else if name = "vlan" then vlan
  else if name = "ip-tunnel" ∨ name = "wireguard" then tunnel
  else other

/-- Whether the kind says all that the connection type says. Two types are
tunnels, so a tunnel has to keep the type beside its kind. -/
def absorbsConnectionType : Kind → Bool
  | ethernet | wifi | modem | bridge | bond | vlan => true
  | tunnel | other => false

end Kind

end NetProfile
