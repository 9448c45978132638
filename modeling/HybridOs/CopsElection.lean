import HybridOs.CopsAddress

/-!
# Which controller listens

A controller listens for the other where its own static address is less. The validation of the
configuration compares the same addresses to find a default name, but without a port, which
the comparison does not take.
-/

namespace HybridOs.CopsElection

open CopsAddress

/-- `Config`, as far as failover uses it. -/
structure Config where
  name : List Char
  enableRedundantFailover : Bool
  primaryIP : List (List Char)
  primaryNetworkInterface : List (List Char)
  thisCtrlrStaticIP : List Char
  otherCtrlrStaticIP : List Char
  pduIP : List Char
  pduOutletEndpoint : List Char
  otherCtrlrOutlet : List Char

/-- Why a configuration is refused. -/
inductive ConfigError where
  /-- The passwords or the key were not read. -/
  | encryption
  /-- At least one primary IP address must be provided. -/
  | noPrimaryIP
  /-- Invalid primary IP address provided. -/
  | primaryIP (ip : List Char)
  /-- A network interface must be provided for each IP. -/
  | interfaces (ips interfaces : ℕ)
  /-- No primary network interface provided. -/
  | noInterface (entry : ℕ)
  /-- Invalid static IP provided for this controller. -/
  | thisStaticIP (ip : List Char)
  /-- Invalid static IP provided for other controller. -/
  | otherStaticIP (ip : List Char)
  /-- Invalid PDU IP provided. -/
  | pduIP (ip : List Char)
  /-- The outlet value should be able to be parsed as an integer. -/
  | outlet (value : List Char)
  /-- The outlet value is out of range. -/
  | outletRange (value : ℤ)
  /-- The static addresses were not compared. -/
  | comparing (error : AddressError)

/-- `strconv.Atoi`. -/
def atoi : List Char → Option ℤ
  | '-' :: text => ((digits text).filter (· ≤ 2 ^ 63)).map fun n => -(n : ℤ)
  | '+' :: text => (fieldNumber text).map fun n => (n : ℤ)
  | text => (fieldNumber text).map fun n => (n : ℤ)

/-- `C2CPort`. -/
def C2CPort : List Char := [':', '8', '0', '0', '0']

/-- The name that the validation gives a controller without one. -/
def generateName (lib : Lib) (config : Config) : Except ConfigError Config :=
  if config.name = [] then
    match lib.isIPLessThan config.thisCtrlrStaticIP config.otherCtrlrStaticIP with
    | .error e => .error (.comparing e)
    | .ok true => .ok {config with name := "cops_server".toList}
    | .ok false => .ok {config with name := "cops_client".toList}
  else .ok config

/-- `validateFailoverConfig`, given whether the encryption was configured. -/
def validateFailoverConfig (lib : Lib) (handleEncryptionConfig : Bool) (config : Config) :
    Except ConfigError Config :=
  if config.enableRedundantFailover = false then .ok config
  else if handleEncryptionConfig = false then .error .encryption
  else if config.primaryIP = [] then .error .noPrimaryIP
  else
    match config.primaryIP.find? fun ip => !lib.parseIP ip with
    | some ip => .error (.primaryIP ip)
    | none =>
      if config.primaryNetworkInterface.length ≠ config.primaryIP.length then
        .error (.interfaces config.primaryIP.length config.primaryNetworkInterface.length)
      else
        match config.primaryNetworkInterface.findIdx? (· = []) with
        | some entry => .error (.noInterface entry)
        | none =>
          if lib.parseIP config.thisCtrlrStaticIP = false then
            .error (.thisStaticIP config.thisCtrlrStaticIP)
          else if lib.parseIP config.otherCtrlrStaticIP = false then
            .error (.otherStaticIP config.otherCtrlrStaticIP)
          else if lib.parseIP config.pduIP = false then .error (.pduIP config.pduIP)
          else
            let config :=
              if config.pduOutletEndpoint = [] then
                {config with pduOutletEndpoint := ".1.3.6.1.4.1.318.1.1.4.4.2.1.3.".toList}
              else config
            match atoi config.otherCtrlrOutlet with
            | none => .error (.outlet config.otherCtrlrOutlet)
            | some otherOutletInt =>
              if otherOutletInt < 1 ∨ otherOutletInt > 8 then
                .error (.outletRange otherOutletInt)
              else generateName lib config

/-- The role that `configureC2C` decides on: server or client. -/
def configureC2C (lib : Lib) (config : Config) : Except AddressError Bool :=
  lib.isIPLessThan (config.thisCtrlrStaticIP ++ C2CPort) (config.otherCtrlrStaticIP ++ C2CPort)

/-- Both configurations are validated and exactly one controller is the server. -/
def Elects (lib : Lib) (config other : Config) : Prop :=
  ∃ validated validated', validateFailoverConfig lib true config = .ok validated ∧
    validateFailoverConfig lib true other = .ok validated' ∧
    ∃ server, configureC2C lib validated = .ok server ∧
      configureC2C lib validated' = .ok (!server)

/-- The failover settings are valid, besides the name and the static addresses. -/
structure SettingsValid (lib : Lib) (config : Config) : Prop where
  enableRedundantFailover : config.enableRedundantFailover = true
  primaryIP_ne_nil : config.primaryIP ≠ []
  primaryIP : ∀ ip ∈ config.primaryIP, lib.parseIP ip = true
  length_interfaces : config.primaryNetworkInterface.length = config.primaryIP.length
  interfaces : ∀ netInterface ∈ config.primaryNetworkInterface, netInterface ≠ []
  pduIP : lib.parseIP config.pduIP = true
  otherCtrlrOutlet : ∃ outlet, atoi config.otherCtrlrOutlet = some outlet ∧
    1 ≤ outlet ∧ outlet ≤ 8

/-- A controller with the address of another. -/
structure Counterpart (lib : Lib) (own other : IPv4) (config : Config) : Prop where
  settings : SettingsValid lib config
  thisCtrlrStaticIP : config.thisCtrlrStaticIP = own.text
  otherCtrlrStaticIP : config.otherCtrlrStaticIP = other.text

variable {lib : Lib}

/-! ## Static addresses -/

theorem octet_toDigits {n : ℕ} (h : n ≤ 255) : octet (Nat.toDigits 10 n) = some n := by
  have hall : ∀ high low : Fin 16,
      octet (Nat.toDigits 10 (16 * high + low)) = some (16 * high + low : ℕ) := by
    intro high
    fin_cases high <;> decide +kernel
  have hparts := hall ⟨n / 16, by omega⟩ ⟨n % 16, by omega⟩
  rwa [Nat.div_add_mod] at hparts

theorem octets_text (ip : IPv4) : Octets (ip.fields.map (Nat.toDigits 10)) ip.fields where
  length_texts := by rw [List.length_map, ip.length_fields]
  octets := by
    have hfields := ip.le_fields
    generalize ip.fields = fields at hfields
    induction fields with
    | nil => rfl
    | cons field fields ih =>
      rw [List.map_cons, List.mapM_cons, octet_toDigits (hfields field List.mem_cons_self),
        ih fun other hother => hfields other (List.mem_cons_of_mem _ hother)]
      rfl

theorem parseIP_text (ip : IPv4) : lib.parseIP ip.text = true := by
  have hcolon := colon_notMem (octets_text ip)
  rw [IPv4.text, parseIP_iff hcolon, parseIPv4_iff.2 ⟨_, octets_text ip, rfl⟩]
  rfl

/-- An address without a port is not compared. -/
theorem numberfyIP_text (ip : IPv4) : lib.numberfyIP ip.text = .error .portFormat := by
  have hcount : ip.text.count ':' = 0 :=
    List.count_eq_zero_of_not_mem (colon_notMem (octets_text ip))
  rw [Lib.numberfyIP, Lib.checkIPAddrFormat, if_pos (by omega)]
  rfl

/-- The number of an address with the port of controllers. -/
theorem numberfyIP_C2CPort (hascii : lib.Ascii) (ip : IPv4) :
    lib.numberfyIP (ip.text ++ C2CPort) = .ok (addressNumber ip.fields * 10 ^ 6 + 8000) := by
  have hspelled : Spelled (ip.text ++ C2CPort) (ip.fields.map (Nat.toDigits 10)) ip.fields
      ['8', '0', '0', '0'] := ⟨octets_text ip, rfl⟩
  have hformat : lib.checkIPAddrFormat (ip.text ++ C2CPort) = .ok () :=
    checkIPAddrFormat_iff.2 ⟨_, _, _, hspelled, by decide⟩
  have hport : fieldsFunc (fun c => !lib.isNumber c) ['8', '0', '0', '0'] =
      [['8', '0', '0', '0']] := by
    have hnumber : ∀ c ∈ ['8', '0', '0', '0'], (!lib.isNumber c) = false := by
      have height : lib.isNumber '8' = true := hascii '8' (by decide)
      have hzero : lib.isNumber '0' = true := hascii '0' (by decide)
      simp [height, hzero]
    rw [fieldsFunc, List.splitOnP_eq_singleton hnumber]
    rfl
  obtain ⟨ta, tb, tc, td, a, b, c, d, htexts, hfields, ha, hb, hc, hd⟩ := (octets_text ip).fields
  have ha' := (octet_eq_some ha).2
  have hb' := (octet_eq_some hb).2
  have hc' := (octet_eq_some hc).2
  have hd' := (octet_eq_some hd).2
  have hsplit : lib.splitIPAddr (ip.text ++ C2CPort) = .ok [a, b, c, d, 8000] := by
    rw [splitIPAddr_spelled hascii hspelled, hport, hfields]
    rfl
  have hwidth : portWidth 8000 = 6 := by decide
  have hvalue : digits (concatenated [a, b, c, d, 8000]) =
      some (addressNumber [a, b, c, d] * 10 ^ 6 + 8000) := by
    rw [concatenated_value ha' hb' hc' hd', hwidth]
  have hbound : addressNumber [a, b, c, d] * 10 ^ 6 + 8000 < 2 ^ 64 := by
    simp only [addressNumber, List.foldl_cons, List.foldl_nil]
    omega
  rw [Lib.numberfyIP, hformat, hsplit, hfields]
  simp only [bind, Except.bind, hvalue, Option.filter_some, hbound, decide_true, if_true]

/-! ## Validation -/

variable {own other : IPv4} {config : Config}

theorem validateFailoverConfig_eq (h : Counterpart lib own other config) :
    validateFailoverConfig lib true config =
      generateName lib (if config.pduOutletEndpoint = [] then
          {config with pduOutletEndpoint := ".1.3.6.1.4.1.318.1.1.4.4.2.1.3.".toList}
        else config) := by
  obtain ⟨outlet, houtlet, hlow, hhigh⟩ := h.settings.otherCtrlrOutlet
  have hprimary : (config.primaryIP.find? fun ip => !lib.parseIP ip) = none := by
    rw [List.find?_eq_none]
    intro ip hip
    simp [h.settings.primaryIP ip hip]
  have hinterfaces : config.primaryNetworkInterface.findIdx? (· = []) = none := by
    rw [List.findIdx?_eq_none_iff]
    intro netInterface hmem
    exact decide_eq_false (h.settings.interfaces netInterface hmem)
  have hthis : lib.parseIP config.thisCtrlrStaticIP = true := by
    rw [h.thisCtrlrStaticIP, parseIP_text]
  have hother : lib.parseIP config.otherCtrlrStaticIP = true := by
    rw [h.otherCtrlrStaticIP, parseIP_text]
  have hrange : ¬ (outlet < 1 ∨ outlet > 8) := by omega
  rw [validateFailoverConfig, h.settings.enableRedundantFailover, if_neg (by decide),
    if_neg (by decide), if_neg h.settings.primaryIP_ne_nil, hprimary]
  rw [if_neg (not_not.2 h.settings.length_interfaces), hinterfaces]
  rw [hthis, hother, h.settings.pduIP, if_neg (by decide), if_neg (by decide),
    if_neg (by decide)]
  split_ifs
  · simp only [houtlet, if_neg hrange]
  · simp only [houtlet, if_neg hrange]

/-- A name given stays, and nothing is compared. -/
theorem validated_of_name (h : Counterpart lib own other config) (hname : config.name ≠ []) :
    ∃ validated, validateFailoverConfig lib true config = .ok validated ∧
      validated.thisCtrlrStaticIP = own.text ∧ validated.otherCtrlrStaticIP = other.text := by
  rw [validateFailoverConfig_eq h]
  split_ifs
  · rw [generateName, if_neg hname]
    exact ⟨_, rfl, h.thisCtrlrStaticIP, h.otherCtrlrStaticIP⟩
  · rw [generateName, if_neg hname]
    exact ⟨_, rfl, h.thisCtrlrStaticIP, h.otherCtrlrStaticIP⟩

/-- Without a name the addresses are compared, which have no port. -/
theorem refused_of_no_name (h : Counterpart lib own other config) (hname : config.name = []) :
    validateFailoverConfig lib true config = .error (.comparing .portFormat) := by
  have hcompared : lib.isIPLessThan config.thisCtrlrStaticIP config.otherCtrlrStaticIP =
      .error .portFormat := by
    rw [h.thisCtrlrStaticIP, Lib.isIPLessThan, numberfyIP_text]
    rfl
  rw [validateFailoverConfig_eq h]
  split_ifs
  · simp only [generateName, if_pos hname, hcompared]
  · simp only [generateName, if_pos hname, hcompared]

/-! ## The election -/

theorem addressNumber_ne (hne : own ≠ other) :
    addressNumber own.fields ≠ addressNumber other.fields := by
  intro heq
  have hsame := addressNumber_inj own.length_fields other.length_fields own.le_fields
    other.le_fields heq
  cases own
  cases other
  simp only [IPv4.mk.injEq, ne_eq] at hne hsame
  exact hne hsame

theorem configureC2C_eq (hascii : lib.Ascii) (hne : own ≠ other)
    (hthis : config.thisCtrlrStaticIP = own.text)
    (hother : config.otherCtrlrStaticIP = other.text) :
    configureC2C lib config =
      .ok (decide (addressNumber own.fields < addressNumber other.fields)) := by
  have hfields := addressNumber_ne hne
  rw [configureC2C, hthis, hother, isIPLessThan_of_ok (numberfyIP_C2CPort hascii own)
    (numberfyIP_C2CPort hascii other), if_neg (by omega), Except.ok.injEq, decide_eq_decide]
  omega

theorem elects_iff (hascii : lib.Ascii) (hne : own ≠ other) {config' : Config}
    (h : Counterpart lib own other config) (h' : Counterpart lib other own config') :
    Elects lib config config' ↔ config.name ≠ [] ∧ config'.name ≠ [] := by
  constructor
  · rintro ⟨validated, validated', hvalidated, hvalidated', -⟩
    constructor
    · intro hname
      rw [refused_of_no_name h hname] at hvalidated
      contradiction
    · intro hname
      rw [refused_of_no_name h' hname] at hvalidated'
      contradiction
  · rintro ⟨hname, hname'⟩
    obtain ⟨validated, hvalidated, hthis, hother⟩ := validated_of_name h hname
    obtain ⟨validated', hvalidated', hthis', hother'⟩ := validated_of_name h' hname'
    have hserver := configureC2C_eq hascii hne hthis hother
    have hserver' := configureC2C_eq hascii hne.symm hthis' hother'
    have hfields := addressNumber_ne hne
    have hroles : decide (addressNumber other.fields < addressNumber own.fields) =
        !decide (addressNumber own.fields < addressNumber other.fields) := by
      by_cases hlt : addressNumber own.fields < addressNumber other.fields
      · rw [decide_eq_true hlt, decide_eq_false (by omega)]
        rfl
      · rw [decide_eq_false hlt, decide_eq_true (by omega)]
        rfl
    rw [hroles] at hserver'
    exact ⟨validated, validated', hvalidated, hvalidated', _, hserver, hserver'⟩

/-- Two controllers with each other's address are validated and elect one server exactly where
both have a name; the comparison is a strict order, in which two accepted texts are compared
exactly where they do not run into each other. -/
theorem election_iff (hascii : lib.Ascii) :
    (∀ (own other : IPv4) (config config' : Config), own ≠ other →
      Counterpart lib own other config → Counterpart lib other own config' →
      (Elects lib config config' ↔ config.name ≠ [] ∧ config'.name ≠ [])) ∧
    (∀ ip, ¬ lib.Less ip ip) ∧
    (∀ ip other third, lib.Less ip other → lib.Less other third → lib.Less ip third) ∧
    ∀ ip other, lib.Accepts ip → lib.Accepts other →
      (lib.Less ip other ∨ lib.Less other ip ↔ ¬ lib.Collide ip other) := by
  constructor
  · intro own other config config' hne h h'
    exact elects_iff hascii hne h h'
  constructor
  · exact less_irrefl
  constructor
  · intro ip other third h h'
    exact less_trans h h'
  · intro ip other h h'
    exact compared_iff hascii h h'

/-- Digits are the only numbers, and there are no IPv6 addresses. -/
def asciiLib : Lib where
  isNumber := Char.isDigit
  parseIPv6 _ := false

/-- `10.0.0.n`. -/
def privateIP (n : ℕ) (h : n ≤ 255) : IPv4 where
  fields := [10, 0, 0, n]
  length_fields := rfl
  le_fields := by
    simp only [List.mem_cons, List.not_mem_nil, or_false, forall_eq_or_imp, forall_eq]
    omega

/-- A controller of two with its name. -/
def controller (name : List Char) (own other : IPv4) : Config where
  name := name
  enableRedundantFailover := true
  primaryIP := ["10.0.0.3".toList]
  primaryNetworkInterface := ["eth0".toList]
  thisCtrlrStaticIP := own.text
  otherCtrlrStaticIP := other.text
  pduIP := "10.0.0.4".toList
  pduOutletEndpoint := []
  otherCtrlrOutlet := ['1']

theorem controller_counterpart (name : List Char) (own other : IPv4) :
    Counterpart asciiLib own other (controller name own other) where
  settings :=
    { enableRedundantFailover := rfl
      primaryIP_ne_nil := List.cons_ne_nil _ _
      primaryIP := by
        intro ip hip
        rw [List.mem_singleton.1 hip]
        decide
      length_interfaces := rfl
      interfaces := by
        intro netInterface hmem
        rw [List.mem_singleton.1 hmem]
        decide
      pduIP := by
        change asciiLib.parseIP "10.0.0.4".toList = true
        decide
      otherCtrlrOutlet := ⟨1, rfl, by omega, by omega⟩ }
  thisCtrlrStaticIP := rfl
  otherCtrlrStaticIP := rfl

theorem first_ne_second : privateIP 1 (by omega) ≠ privateIP 2 (by omega) := by
  intro h
  have hfields := congrArg IPv4.fields h
  contradiction

theorem election_iff_named :
    Elects asciiLib (controller ['a'] (privateIP 1 (by omega)) (privateIP 2 (by omega)))
      (controller ['b'] (privateIP 2 (by omega)) (privateIP 1 (by omega))) :=
  ((@election_iff asciiLib fun _ _ => rfl).1 _ _ _ _ first_ne_second
    (controller_counterpart ['a'] _ _) (controller_counterpart ['b'] _ _)).2
    ⟨List.cons_ne_nil _ _, List.cons_ne_nil _ _⟩

/-- Two controllers without names are both refused. -/
theorem unnamed_refused :
    ¬ ∀ (own other : IPv4) (config config' : Config), own ≠ other →
      Counterpart asciiLib own other config → Counterpart asciiLib other own config' →
      Elects asciiLib config config' := by
  intro hall
  have helects := hall _ _ _ _ first_ne_second (controller_counterpart [] _ _)
    (controller_counterpart [] _ _)
  obtain ⟨validated, validated', hvalidated, -⟩ := helects
  rw [refused_of_no_name (controller_counterpart [] _ _) rfl] at hvalidated
  contradiction

end HybridOs.CopsElection
