import NetworkManager.Core.ConfigFiles
import Mathlib.Data.String.Basic

/-!
# The global DNS configuration

It comes from the D-Bus property, is stored in groups of the internal configuration and is loaded
from there. Servers and options that are not valid are dropped, on both ways.
-/

namespace NetworkManager.Core

open Lib GlibAux

/-- `nm_strv_cleanup()` with all flags. -/
def nmStrvCleanup (strv : List Bytes) : List Bytes :=
  (strv.map strstrip).foldl (fun kept s => if s = [] ∨ s ∈ kept then kept else kept ++ [s]) []

/-- `_nm_utils_dns_option_validate()` without descriptions of the options. -/
def dnsOptionValidate (option : Bytes) : Bool :=
  match option.dropWhile fun c : UInt8 => c ≠ ':' with
  | [] => option ≠ []
  | _ :: option1 =>
    option1 ≠ [] && option1.all isDigit && (option.takeWhile fun c : UInt8 => c ≠ ':') ≠ [] &&
      (asciiStrToInt64 option1 10 0 2147483647).isSome

structure NMGlobalDnsDomain where
  name : String
  servers : List Bytes
  options : Option (List Bytes)
deriving DecidableEq

/-- `NMGlobalDnsConfig`. The list of the domains is empty where it is missing. -/
structure NMGlobalDnsConfig where
  searches : Option (List Bytes)
  options : Option (List Bytes)
  domains : List NMGlobalDnsDomain
  domainList : List String
  internal : Bool

namespace NMGlobalDnsConfig

def isEmpty (dnsConfig : NMGlobalDnsConfig) : Bool :=
  dnsConfig.searches.isNone && dnsConfig.options.isNone && dnsConfig.domainList.isEmpty

def lookupDomain (dnsConfig : NMGlobalDnsConfig) (name : String) : Option NMGlobalDnsDomain :=
  lookup NMGlobalDnsDomain.name name dnsConfig.domains

def sealDomains (dnsConfig : NMGlobalDnsConfig) : NMGlobalDnsConfig :=
  { dnsConfig with
    domainList := (dnsConfig.domains.map NMGlobalDnsDomain.name).insertionSort (· ≤ ·) }

end NMGlobalDnsConfig

def keepStrv (strv : List Bytes) (old : Option (List Bytes)) : Option (List Bytes) :=
  if strv = [] then old else some strv

variable (inetIsValid : Bytes → Bool)

/-! ## From the D-Bus property -/

/-- A string of the bus. -/
abbrev BusString := {s : Bytes // isUtf8 s}

/-- A value of the bus: an array of strings, a dictionary with variants, or something else. -/
inductive BusValue where
  | strv (strv : List BusString)
  | dict (entries : List (String × BusValue))
  | other

/-- A dictionary of the bus. -/
abbrev BusDict := List (String × BusValue)

def cleanServers (strv : List Bytes) : List Bytes := (nmStrvCleanup strv).filter inetIsValid

def cleanOptions (strv : List Bytes) : List Bytes := (nmStrvCleanup strv).filter dnsOptionValidate

/-- The servers and options of a domain that is being read. -/
structure DomainValues where
  servers : Option (List Bytes)
  options : Option (List Bytes)

/-- The body of the loop of `global_dns_domain_from_dbus()`. -/
def domainValuesEntry (domain : DomainValues) : String × BusValue → DomainValues
  | ("servers", .strv strv) =>
    { domain with
      servers := keepStrv (cleanServers inetIsValid (strv.map Subtype.val)) domain.servers }
  | ("options", .strv strv) =>
    { domain with options := keepStrv (nmStrvCleanup (strv.map Subtype.val)) none }
  | _ => domain

def globalDnsDomainFromDbus (name : String) : BusValue → Option NMGlobalDnsDomain
  | .dict entries =>
    let domain := entries.foldl (domainValuesEntry inetIsValid) ⟨none, none⟩
    domain.servers.map fun servers => ⟨name, servers, domain.options⟩
  | _ => none

/-- The body of the loop of `nm_global_dns_config_from_dbus()` over the domains. -/
def insertDomain (domains : List NMGlobalDnsDomain) (entry : String × BusValue) :
    List NMGlobalDnsDomain :=
  match globalDnsDomainFromDbus inetIsValid entry.1 entry.2 with
  | none => domains
  | some domain => upsert NMGlobalDnsDomain.name domain domains

/-- The body of the loop of `nm_global_dns_config_from_dbus()`. -/
def globalDnsConfigEntry (dnsConfig : NMGlobalDnsConfig) : String × BusValue → NMGlobalDnsConfig
  | ("searches", .strv strv) =>
    { dnsConfig with searches := some (nmStrvCleanup (strv.map Subtype.val)) }
  | ("options", .strv strv) =>
    { dnsConfig with
      options := keepStrv (cleanOptions (strv.map Subtype.val)) dnsConfig.options }
  | ("domains", .dict entries) =>
    { dnsConfig with domains := entries.foldl (insertDomain inetIsValid) dnsConfig.domains }
  | _ => dnsConfig

/-- `nm_global_dns_config_from_dbus()` of a dictionary. -/
def globalDnsConfigFromDbus (value : BusDict) : Option NMGlobalDnsConfig :=
  let dnsConfig := value.foldl (globalDnsConfigEntry inetIsValid) ⟨none, none, [], [], false⟩
  if !dnsConfig.isEmpty && (dnsConfig.lookupDomain "*").isNone then none
  else some dnsConfig.sealDomains

/-! ## From the key file -/

def groupGlobalDns (internal : Bool) : String :=
  if internal then ".intern.global-dns" else "global-dns"

def groupPrefixGlobalDnsDomain (internal : Bool) : String :=
  if internal then ".intern.global-dns-domain-" else "global-dns-domain-"

def keyfileHasGlobalDnsConfig (keyfile : ConfigKeyfile) (internal : Bool) : Bool :=
  keyfile.hasGroup (groupGlobalDns internal) ||
    keyfile.getGroups.any fun group => strHasPrefix group (groupPrefixGlobalDnsDomain internal)

/-- The body of the loop of `load_global_dns()` over the groups. -/
def loadDomain (keyfile : ConfigKeyfile) (internal : Bool) (domains : List NMGlobalDnsDomain)
    (group : String) : List NMGlobalDnsDomain :=
  match afterPrefixWithMore (groupPrefixGlobalDnsDomain internal) group with
  | none => domains
  | some name =>
    match (keyfileGetStringList keyfile group "servers").bind fun strv =>
        keepStrv (cleanServers inetIsValid strv) none with
    | none => domains
    | some servers =>
      upsert NMGlobalDnsDomain.name ⟨name, servers,
        (keyfileGetStringList keyfile group "options").bind fun strv =>
          keepStrv (nmStrvCleanup strv) none⟩ domains

def loadGlobalDns (keyfile : Option ConfigKeyfile) (internal : Bool) : Option NMGlobalDnsConfig :=
  match keyfile with
  | none => none
  | some keyfile =>
    let group := groupGlobalDns internal
    let domains := keyfile.getGroups.foldl (loadDomain inetIsValid keyfile internal) []
    let dnsConfig : NMGlobalDnsConfig :=
      { searches := (keyfileGetStringList keyfile group "searches").bind fun strv =>
          keepStrv (nmStrvCleanup strv) none
        options := (keyfileGetStringList keyfile group "options").bind fun strv =>
          keepStrv (cleanOptions strv) none
        domains := domains
        domainList := []
        internal := internal }
    if !keyfileHasGlobalDnsConfig keyfile internal then none
    else if (dnsConfig.lookupDomain "*").isNone ∧ domains ≠ [] then none
    else some dnsConfig.sealDomains

/-! ## The configuration -/

/-- The key files of the configuration data, and the prefixes of the atomic sections. The internal
one is missing where it has no groups. -/
structure NMConfig where
  keyfileUser : Option ConfigKeyfile
  keyfileIntern : Option ConfigKeyfile
  atomicSectionPrefixes : List String

def isAtomicSection (atomicSectionPrefixes : List String) (group : String) : Bool :=
  atomicSectionPrefixes.any fun pre => pre ≠ "" && strHasPrefix group pre

/-- `_nm_keyfile_equal()` with order. -/
def keyfileEqual : Option ConfigKeyfile → Option ConfigKeyfile → Bool
  | none, none => true
  | some kfA, some kfB =>
    kfA.getGroups = kfB.getGroups && kfA.getGroups.all fun group =>
      kfA.getKeys group = kfB.getKeys group && (kfA.getKeys group).all fun key =>
        kfA.getValue group key = kfB.getValue group key
  | _, _ => false

def NMConfig.getGlobalDnsConfig (self : NMConfig) : Option NMGlobalDnsConfig :=
  (loadGlobalDns inetIsValid self.keyfileUser false).or
    (loadGlobalDns inetIsValid self.keyfileIntern true)

def globalDnsEqual : Option NMGlobalDnsConfig → Option NMGlobalDnsConfig → Bool
  | none, none => true
  | some old, some new =>
    old.options = new.options && old.searches = new.searches &&
      old.domains.length = new.domains.length && old.domains.all fun domainOld =>
        match new.lookupDomain domainOld.name with
        | none => false
        | some domainNew =>
          domainOld.options = domainNew.options && domainOld.servers = domainNew.servers
  | _, _ => false

/-- The changes that are signalled. -/
structure ConfigChanges where
  valuesIntern : Bool
  globalDnsConfig : Bool
deriving DecidableEq

/-- `nm_config_data_diff()` of data that differ in the internal key file. -/
def configDataDiff (old new : NMConfig) : ConfigChanges where
  valuesIntern := !keyfileEqual old.keyfileIntern new.keyfileIntern
  globalDnsConfig :=
    !globalDnsEqual (old.getGlobalDnsConfig inetIsValid) (new.getGlobalDnsConfig inetIsValid)

def markAtomicSections (atomicSectionPrefixes : List String) (keyfile : ConfigKeyfile) :
    ConfigKeyfile :=
  (keyfile.getGroups.filter (isAtomicSection atomicSectionPrefixes)).foldl
    (fun keyfile group => keyfile.setValue group keyAtomicSectionWas []) keyfile

/-- `nm_config_set_values()`, with the changes if the configuration changed. -/
def configSetValues (self : NMConfig) (keyfileInternNew : ConfigKeyfile) :
    NMConfig × Option ConfigChanges :=
  let keyfileNew := markAtomicSections self.atomicSectionPrefixes
    (keyfileCopy .empty keyfileInternNew)
  let newData := { self with
    keyfileIntern := if keyfileNew.getGroups = [] then none else some keyfileNew }
  let changes := configDataDiff inetIsValid self newData
  if keyfileEqual self.keyfileIntern (some keyfileNew) then (self, none)
  else if changes = ⟨false, false⟩ then (self, none)
  else (newData, some changes)

def removeGlobalDns (keyfile : ConfigKeyfile) : ConfigKeyfile :=
  let keyfile := keyfile.removeGroup (groupGlobalDns true)
  (keyfile.getGroups.filter fun group =>
    strHasPrefix group (groupPrefixGlobalDnsDomain true)).foldl KeyFile.removeGroup keyfile

/-- The groups of a domain. -/
def setDomainGroup (globalDns : NMGlobalDnsConfig) (keyfile : ConfigKeyfile) (name : String) :
    ConfigKeyfile :=
  match globalDns.lookupDomain name with
  | none => keyfile
  | some domain =>
    let groupName := groupPrefixGlobalDnsDomain true ++ domain.name
    let keyfile := keyfileSetStringList keyfile groupName "servers" domain.servers
    keyfileSetStringList keyfile groupName "options" (domain.options.getD [])

/-- The groups of a configuration. -/
def setGlobalDnsGroups (globalDns : NMGlobalDnsConfig) (keyfile : ConfigKeyfile) : ConfigKeyfile :=
  let keyfile := keyfileSetStringList keyfile (groupGlobalDns true) "searches"
    (globalDns.searches.getD [])
  let keyfile := keyfileSetStringList keyfile (groupGlobalDns true) "options"
    (globalDns.options.getD [])
  globalDns.domainList.foldl (setDomainGroup globalDns) keyfile

/-- `nm_config_set_global_dns()`; nothing if the user configured it. -/
def configSetGlobalDns (self : NMConfig) (globalDns : NMGlobalDnsConfig) :
    Option (NMConfig × Option ConfigChanges) :=
  if (self.getGlobalDnsConfig inetIsValid).any fun old => !old.internal then none
  else
    let keyfile := removeGlobalDns (self.keyfileIntern.elim .empty (keyfileCopy .empty))
    some (configSetValues inetIsValid self
      (if globalDns.isEmpty then keyfile else setGlobalDnsGroups globalDns keyfile))

end NetworkManager.Core
