import Mt798x.Wifi.Common

/-!
# The roaming options of an access point

`ap.uc`: the functions that write the lines of one BSS for roaming.
-/

namespace Wifi

/-- What the generator takes from outside: the digest, the files it reads, and the preparation of
an interface, which looks up its address. -/
structure Env where
  md5 : String → String
  readfile : String → Option String
  prepare : Config → Config

namespace Section

variable (s : Section)

/-- The option `key`. -/
def opt (key : String) : Value := s.config key

/-- The truth value of the option `key`. -/
def has (key : String) : Bool := (s.config key).truthy

def authIn (types : List String) : Bool := types.contains (s.opt "auth_type").text

/-- The keys of the other access points of a mobility domain, and those that are derived. -/
def roamingKeys (env : Env) : Section :=
  let s :=
    if !s.has "r0kh" || !s.has "r1kh" then
      let s := if !s.has "auth_secret" && !s.has "key" then
          s.setupFailed "FT_KEY_CANT_BE_DERIVED" else s
      let secret := (s.opt "auth_secret").orElse (s.opt "key")
      let ftKey := env.md5 ((s.opt "mobility_domain").text ++ "/" ++ secret.text)
      let s := s.default "r0kh" (.arr ["ff:ff:ff:ff:ff:ff,*," ++ ftKey])
      s.default "r1kh" (.arr ["00:00:00:00:00:00,00:00:00:00:00:00," ++ ftKey])
    else s
  let s := ["r0kh", "r1kh"].foldl (fun s name => (s.opt name).elems.foldl
    (fun s val => s.append name (.str (" ".intercalate (split val ',' 3)))) s) s
  s.appendVars ["r1_key_holder", "r0_key_lifetime", "pmk_r1_push"]

def ifaceRoaming (env : Env) : Section :=
  if !s.has "ieee80211r" || (s.opt "wpa").num < 2 then s
  else
    let domain := substr (env.md5 ((s.opt "ssid").text ++ "\n")) 4
    let s := s.default "mobility_domain" (.str domain)
    let s := s.default "ft_psk_generate_local" (.bool (s.authIn ["psk"]))
    let s := s.default "ft_iface" (s.opt "network_ifname")
    let s := if !s.has "ft_psk_generate_local" then s.roamingKeys env else s
    s.appendVars [
      "mobility_domain", "ft_psk_generate_local", "ft_over_ds", "reassociation_deadline",
      "ft_iface"]

end Section

end Wifi
