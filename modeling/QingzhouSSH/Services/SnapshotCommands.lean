/-
  QingzhouSSH.Services.SnapshotCommands — a snapshot puts no code into its command.

  What the builders parse is a `Plan`: values that were checked, and a few decisions, its
  `Shape`.  The pieces of a command depend on the plan only; its shape settles what the
  program writes, and the values stand in holes where the shell reads them literally.

  Main results:
    * `build_planned` — every builder writes the pieces of a plan that it has checked;
    * `emptied_written`, `skeleton_fits` — the shape settles the pieces but for the values;
    * `snapshot_rollback_carries_no_code` — the shell reads the program's text and the values.
-/
import QingzhouSSH.Services.SnapshotRollback

namespace QingzhouSSH.Services.SnapshotRollback

open QingzhouSSH.Lib
open QingzhouSSH.Lib.Net (IpAddr)
open QingzhouSSH.Lib.Shell (LexState)
open QingzhouSSH.Lib.ShellSpans
open QingzhouSSH.Core.Tasks (UuidCrate hyphenatedUuid isAsciiAlphanumeric isAsciiDigit shellQuote
  shellQuote_eq_quoted toAsciiLower)
open String (utf8Len)

/-! ## §1. The classes of values. -/

/-- What the check of a class lets through. -/
def ValueClass.admits (value : Text) : ValueClass → Bool
  | .number => !value.isEmpty && value.all isAsciiDigit
  | .mode => !value.isEmpty && value.all isOctal
  | .flag => value == "true".toList || value == "false".toList
  | .protocol => value == "tcp".toList || value == "udp".toList
  | .ruleId => !value.isEmpty && value.all fun c => isAsciiAlphanumeric c || c == '-'
  | .activity => value == "active".toList || value == "inactive".toList
  | .runtime => value == "docker".toList || value == "podman".toList
  | .containerState => value == "running".toList || value == "paused".toList

/-- The class that has all the others. -/
def isSafeChar (c : Char) : Bool := isAsciiAlphanumeric c || c == '-'

theorem isSafeChar_of_digit {c : Char} (h : isAsciiDigit c = true) : isSafeChar c = true := by
  unfold isAsciiDigit at h
  unfold isSafeChar isAsciiAlphanumeric
  rw [h]
  rfl

theorem isSafeChar_of_octal {c : Char} (h : isOctal c = true) : isSafeChar c = true := by
  simp only [isOctal, Bool.and_eq_true, decide_eq_true_eq] at h
  refine isSafeChar_of_digit ?_
  simp only [isAsciiDigit, Bool.and_eq_true, decide_eq_true_eq]
  exact ⟨h.1, le_trans h.2 (by decide)⟩

/-- **An admitted value has no meaning to the shell.** -/
theorem ValueClass.inert {kind : ValueClass} {value : Text} (h : kind.admits value = true) :
    Inert value := by
  have hclass : ∀ p : Char → Bool, (∀ c, p c = true → isSafeChar c = true) →
      (!value.isEmpty && value.all p) = true → Inert value := by
    intro p hp hvalue
    obtain ⟨hne, hall⟩ := Bool.and_eq_true_iff.mp hvalue
    refine Inert.ofClass isSafeChar (by decide) (by simpa using hne) ?_
    exact fun c hc => hp c (List.all_eq_true.mp hall c hc)
  have hword : ∀ a b : Text, (!a.isEmpty && a.all isSafeChar) = true →
      (!b.isEmpty && b.all isSafeChar) = true → (value == a || value == b) = true → Inert value := by
    intro a b ha hb hvalue
    refine hclass isSafeChar (fun _ hc => hc) ?_
    rcases Bool.or_eq_true_iff.mp hvalue with heq | heq
    · rw [eq_of_beq heq]
      exact ha
    · rw [eq_of_beq heq]
      exact hb
  cases kind with
  | number => exact hclass _ (fun _ => isSafeChar_of_digit) h
  | mode => exact hclass _ (fun _ => isSafeChar_of_octal) h
  | flag => exact hword _ _ (by decide) (by decide) h
  | protocol => exact hword _ _ (by decide) (by decide) h
  | ruleId => exact hclass _ (fun _ hc => hc) h
  | activity => exact hword _ _ (by decide) (by decide) h
  | runtime => exact hword _ _ (by decide) (by decide) h
  | containerState => exact hword _ _ (by decide) (by decide) h

/-- A printed number consists of digits. -/
theorem admits_showNat (n : Nat) : ValueClass.number.admits (showNat n) = true := by
  unfold ValueClass.admits
  rw [Bool.and_eq_true]
  constructor
  · have hne : showNat n ≠ [] := Nat.toDigits_ne_nil
    simp [hne]
  · refine List.all_eq_true.mpr fun c hc => ?_
    have hdigit : c.isDigit = true := Nat.isDigit_of_mem_toDigits (by omega) (by omega) hc
    simp only [Char.isDigit, Bool.and_eq_true, decide_eq_true_eq] at hdigit
    simp only [isAsciiDigit, Bool.and_eq_true, decide_eq_true_eq]
    exact hdigit

/-! ## §2. Plans. -/

/-- What the builders have parsed when they format a command. -/
inductive Plan where
  | hostname (name : Text)
  | timezone (zone : Text)
  | timeSync (ntp : Text)
  | permissions (path : Text) (uid gid : Nat) (commandMode mode : Text)
  | noSwap (path : Text)
  | swap (active : Bool) (path : Text) (size : Nat)
  | systemd (service active enabled : Text)
  | sysv (service active : Text)
  | bootPolicy (service : Text) (policy : BootPolicy)
  | container (runtime target : Text) (state : ContainerState)
  | firewall (backend : FirewallBackend) (entry : FirewallEntry)
  | networkManager (connection interface : Text) (profile : ConnectionProfile)
  | network (interface : Text) (addresses : List Cidr) (gatewayFour gatewaySix : Option IpAddr)
  deriving Repr, DecidableEq

/-- The pieces of a plan's command. -/
def Plan.written : Plan → Written
  | .hostname name => hostnameRollback name
  | .timezone zone => timezoneRollback zone
  | .timeSync ntp => timeSyncRollback ntp
  | .permissions path uid gid commandMode mode => permissionsRollback path uid gid commandMode mode
  | .noSwap path => noSwapRollback path
  | .swap active path size => swapRollback active path size
  | .systemd service active enabled => systemdRollback service active enabled
  | .sysv service active => sysvRollback service active
  | .bootPolicy service policy => bootPolicyRollback service policy
  | .container runtime target state => containerRollback runtime target state
  | .firewall backend entry => backend.rollback entry
  | .networkManager connection interface profile => networkManagerRollback connection interface profile
  | .network interface addresses gatewayFour gatewaySix =>
      networkRollback interface addresses gatewayFour gatewaySix

/-- The values that are not quoted have passed the check of their class. -/
def Plan.Checked : Plan → Prop
  | .timeSync ntp => ValueClass.flag.admits ntp = true
  | .permissions _ _ _ commandMode mode =>
      ValueClass.mode.admits commandMode = true ∧ ValueClass.mode.admits mode = true
  | .systemd _ active _ => ValueClass.activity.admits active = true
  | .sysv _ active => ValueClass.activity.admits active = true
  | .container runtime _ _ => ValueClass.runtime.admits runtime = true
  | .firewall _ entry => ValueClass.ruleId.admits entry.entryId = true
      ∧ ValueClass.protocol.admits entry.protocol = true
  | _ => True

/-- The decisions of a plan: it has no text. -/
inductive Shape where
  | hostname
  | timezone
  | timeSync
  | permissions
  | noSwap
  | swap (active : Bool)
  | systemd (active : Bool)
  | sysv (active : Bool)
  | bootPolicy (policy : BootPolicy)
  | container (state : ContainerState)
  | firewall (backend : FirewallBackend) (present : Bool)
  | networkManager
  | network (families : List Bool) (gatewayFour gatewaySix : Bool)
  deriving Repr, DecidableEq

def Plan.shape : Plan → Shape
  | .hostname _ => .hostname
  | .timezone _ => .timezone
  | .timeSync _ => .timeSync
  | .permissions _ _ _ _ _ => .permissions
  | .noSwap _ => .noSwap
  | .swap active _ _ => .swap active
  | .systemd _ active _ => .systemd (isActive active)
  | .sysv _ active => .sysv (isActive active)
  | .bootPolicy _ policy => .bootPolicy policy
  | .container _ _ state => .container state
  | .firewall backend entry => .firewall backend entry.present
  | .networkManager _ _ _ => .networkManager
  | .network _ addresses gatewayFour gatewaySix =>
      .network (addresses.map fun cidr => cidr.1.isIpv4) gatewayFour.isSome gatewaySix.isSome

/-! ## §3. The shape settles the pieces. -/

def Written.emptied (written : Written) : Written :=
  ⟨written.command.map Span.emptied, written.verify.map Span.emptied⟩

/-- A text for each activity. -/
def activityText (active : Bool) : Text := if active then "active".toList else []

/-- An address of each family. -/
def blankAddress (ipv4 : Bool) : IpAddr := if ipv4 then .v4 [] else .v6 []

def blankGateway (present ipv4 : Bool) : Option IpAddr :=
  if present then some (blankAddress ipv4) else none

/-- The plan of a shape that has no values. -/
def Shape.blank : Shape → Plan
  | .hostname => .hostname []
  | .timezone => .timezone []
  | .timeSync => .timeSync []
  | .permissions => .permissions [] 0 0 [] []
  | .noSwap => .noSwap []
  | .swap active => .swap active [] 0
  | .systemd active => .systemd [] (activityText active) []
  | .sysv active => .sysv [] (activityText active)
  | .bootPolicy policy => .bootPolicy [] policy
  | .container state => .container [] [] state
  | .firewall backend present => .firewall backend ⟨[], 0, [], present⟩
  | .networkManager => .networkManager [] [] ⟨[], [], [], [], [], []⟩
  | .network families gatewayFour gatewaySix =>
      .network [] (families.map fun ipv4 => (blankAddress ipv4, 0)) (blankGateway gatewayFour true)
        (blankGateway gatewaySix false)

theorem isActive_activityText (active : Bool) : isActive (activityText active) = active := by
  cases active <;> decide

@[simp] theorem isIpv4_blankAddress (ipv4 : Bool) : (blankAddress ipv4).isIpv4 = ipv4 := by
  cases ipv4 <;> rfl

/-- The same pieces for every address of one family. -/
theorem emptied_addresses {f : Cidr → Spans} {g : Cidr → Spans}
    (h : ∀ cidr, (f cidr).map Span.emptied
      = (g (blankAddress cidr.1.isIpv4, 0)).map Span.emptied) (addresses : List Cidr) :
    (addresses.flatMap f).map Span.emptied
      = ((addresses.map fun cidr => (blankAddress cidr.1.isIpv4, 0)).flatMap g).map Span.emptied := by
  induction addresses with
  | nil => rfl
  | cons cidr addresses ih =>
      rw [List.flatMap_cons, List.map_cons, List.flatMap_cons, List.map_append, List.map_append, ih,
        h cidr]

theorem emptied_addAddress (interface : Text) (cidr : Cidr) :
    (addAddress interface cidr).map Span.emptied
      = (addAddress [] (blankAddress cidr.1.isIpv4, 0)).map Span.emptied := by
  unfold addAddress
  rw [isIpv4_blankAddress]
  rfl

theorem emptied_checkAddress (interface : Text) (cidr : Cidr) :
    (checkAddress interface cidr).map Span.emptied
      = (checkAddress [] (blankAddress cidr.1.isIpv4, 0)).map Span.emptied := by
  unfold checkAddress
  rw [isIpv4_blankAddress]
  rfl

theorem emptied_replaceGateway (interface : Text) (ipv4 : Bool) (gateway : Option IpAddr) :
    (replaceGateway interface ipv4 gateway).map Span.emptied
      = (replaceGateway [] ipv4 (blankGateway gateway.isSome ipv4)).map Span.emptied := by
  cases gateway <;> rfl

theorem emptied_checkGateway (interface : Text) (ipv4 : Bool) (gateway : Option IpAddr) :
    (checkGateway interface ipv4 gateway).map Span.emptied
      = (checkGateway [] ipv4 (blankGateway gateway.isSome ipv4)).map Span.emptied := by
  cases gateway <;> rfl

/-- **Without its values, a command is settled by the shape.** -/
theorem emptied_written (plan : Plan) : plan.written.emptied = plan.shape.blank.written.emptied := by
  cases plan with
  | hostname name => rfl
  | timezone zone => rfl
  | timeSync ntp => rfl
  | permissions path uid gid commandMode mode => rfl
  | noSwap path => rfl
  | swap active path size => cases active <;> rfl
  | systemd service active enabled =>
      show (systemdRollback service active enabled).emptied
        = (systemdRollback [] (activityText (isActive active)) []).emptied
      unfold systemdRollback serviceAction
      rw [isActive_activityText]
      rfl
  | sysv service active =>
      show (sysvRollback service active).emptied
        = (sysvRollback [] (activityText (isActive active))).emptied
      unfold sysvRollback serviceAction
      rw [isActive_activityText]
      cases isActive active <;> rfl
  | bootPolicy service policy => cases policy <;> rfl
  | container runtime target state => cases state <;> rfl
  | firewall backend entry =>
      obtain ⟨entryId, port, protocol, present⟩ := entry
      cases backend <;> cases present <;> rfl
  | networkManager connection interface profile => rfl
  | network interface addresses gatewayFour gatewaySix =>
      show (networkRollback interface addresses gatewayFour gatewaySix).emptied
        = (networkRollback [] ((addresses.map fun cidr => cidr.1.isIpv4).map
            fun ipv4 => (blankAddress ipv4, 0)) (blankGateway gatewayFour.isSome true)
          (blankGateway gatewaySix.isSome false)).emptied
      rw [List.map_map]
      unfold networkRollback Written.emptied
      simp only [List.map_append]
      rw [emptied_addresses (emptied_addAddress interface), emptied_addresses (emptied_checkAddress interface),
        emptied_replaceGateway interface true, emptied_replaceGateway interface false,
        emptied_checkGateway interface true, emptied_checkGateway interface false]
      rfl

/-! ## §4. The holes of every shape. -/

/-- In both texts every hole stands where the shell reads it literally. -/
structure Written.Fits (written : Written) : Prop where
  command : fits LexState.start written.command = true
  verify : fits LexState.start written.verify = true

instance (written : Written) : Decidable written.Fits :=
  decidable_of_iff
    (fits LexState.start written.command = true ∧ fits LexState.start written.verify = true)
    ⟨fun h => ⟨h.1, h.2⟩, fun h => ⟨h.command, h.verify⟩⟩

theorem Written.fits_of_emptied {written other : Written}
    (h : written.emptied = other.emptied) (hother : other.Fits) : written.Fits := by
  have hcommand : written.command.map Span.emptied = other.command.map Span.emptied :=
    congrArg Written.command h
  have hverify : written.verify.map Span.emptied = other.verify.map Span.emptied :=
    congrArg Written.verify h
  constructor
  · rw [← fits_emptied, hcommand, fits_emptied]
    exact hother.command
  · rw [← fits_emptied, hverify, fits_emptied]
    exact hother.verify

/-- The shell behind the first commands on addresses: in a word, outside quotes. -/
def addressState : LexState := LexState.start.inside

theorem after_append (s : LexState) (spans more : Spans) :
    after s (spans ++ more) = after (after s spans) more := by
  unfold after
  rw [List.foldl_append]

/-- The characters of a literal, for the evaluation of the pieces below. -/
theorem fixed_ofList (text : Text) : fixed (String.ofList text) = .program text :=
  congrArg Span.program String.toList_ofList

/-- A piece whose holes are read literally, and that leaves the shell where it was. -/
def Returns (s : LexState) (spans : Spans) : Prop := fits s spans = true ∧ after s spans = s

instance (s : LexState) (spans : Spans) : Decidable (Returns s spans) :=
  inferInstanceAs (Decidable (fits s spans = true ∧ after s spans = s))

/-- The pieces of a command on addresses, whichever family they have. -/
theorem network_pieces :
    (∀ ipv4, Returns addressState (addAddress [] (blankAddress ipv4, 0)))
      ∧ (∀ ipv4, Returns addressState (replaceGateway [] ipv4 (some (blankAddress ipv4))))
      ∧ Returns addressState (dropGateways [])
      ∧ (∀ ipv4, Returns LexState.start (checkAddress [] (blankAddress ipv4, 0)))
      ∧ (∀ ipv4, Returns LexState.start (checkGateway [] ipv4 (some (blankAddress ipv4))))
      ∧ (fits LexState.start (flushAddresses []) = true
        ∧ after LexState.start (flushAddresses []) = addressState)
      ∧ fits LexState.start (checkCounts [] 0 0) = true := by
  simp only [addAddress, checkAddress, replaceGateway, checkGateway, dropGateways, flushAddresses,
    checkCounts, quotedCidr]
  repeat rw [fixed_ofList]
  decide +kernel

theorem replaceGateway_returns (ipv4 present : Bool) :
    Returns addressState (replaceGateway [] ipv4 (blankGateway present ipv4)) := by
  cases present with
  | false => exact ⟨rfl, rfl⟩
  | true => exact network_pieces.2.1 ipv4

theorem checkGateway_returns (ipv4 present : Bool) :
    Returns LexState.start (checkGateway [] ipv4 (blankGateway present ipv4)) := by
  cases present with
  | false => exact ⟨rfl, rfl⟩
  | true => exact network_pieces.2.2.2.2.1 ipv4

theorem checkCounts_fits (countFour countSix : Nat) :
    fits LexState.start (checkCounts [] countFour countSix) = true := by
  have hblank : fits LexState.start (checkCounts [] 0 0) = true := network_pieces.2.2.2.2.2.2
  -- the counts are holes, so that any will do
  rw [← fits_emptied] at hblank ⊢
  exact hblank

/-- A piece for each of the addresses. -/
theorem addresses_return {s : LexState} {f : Cidr → Spans}
    (h : ∀ ipv4, Returns s (f (blankAddress ipv4, 0))) (families : List Bool) :
    Returns s ((families.map fun ipv4 => (blankAddress ipv4, 0)).flatMap f) := by
  apply repeated
  · intro cidr hcidr
    obtain ⟨ipv4, -, rfl⟩ := List.mem_map.mp hcidr
    exact (h ipv4).1
  · intro cidr hcidr
    obtain ⟨ipv4, -, rfl⟩ := List.mem_map.mp hcidr
    exact (h ipv4).2

theorem network_fits (families : List Bool) (gatewayFour gatewaySix : Bool) :
    (Shape.network families gatewayFour gatewaySix).blank.written.Fits := by
  obtain ⟨haddresses, -, ⟨hdrop, hdropBack⟩, hchecks, -, ⟨hflush, hflushAfter⟩, -⟩ := network_pieces
  obtain ⟨hadd, haddBack⟩ := addresses_return haddresses families
  obtain ⟨hcheck, hcheckBack⟩ := addresses_return hchecks families
  obtain ⟨hfour, hfourBack⟩ := replaceGateway_returns true gatewayFour
  obtain ⟨hsix, -⟩ := replaceGateway_returns false gatewaySix
  obtain ⟨hcheckFour, hcheckFourBack⟩ := checkGateway_returns true gatewayFour
  obtain ⟨hcheckSix, hcheckSixBack⟩ := checkGateway_returns false gatewaySix
  constructor
  · show fits LexState.start (flushAddresses [] ++ List.flatMap _ _ ++ dropGateways []
      ++ replaceGateway [] true _ ++ replaceGateway [] false _) = true
    simp only [fits_append, after_append, hflush, hflushAfter, hadd, haddBack, hdrop, hdropBack,
      hfour, hfourBack, hsix, Bool.and_self]
  · show fits LexState.start (List.flatMap _ _ ++ checkGateway [] true _ ++ checkGateway [] false _
      ++ checkCounts [] _ _) = true
    simp only [fits_append, after_append, hcheck, hcheckBack, hcheckFour, hcheckFourBack,
      hcheckSix, hcheckSixBack, checkCounts_fits, Bool.and_self]

/-- The shapes whose commands have a fixed number of pieces. -/
def fixedShapes : List Shape :=
  [.hostname, .timezone, .timeSync, .permissions, .noSwap, .swap true, .swap false, .systemd true,
    .systemd false, .sysv true, .sysv false, .bootPolicy .enabled, .bootPolicy .enabledRuntime,
    .bootPolicy .disabled, .bootPolicy .masked, .bootPolicy .maskedRuntime, .container .running,
    .container .paused, .container .stopped, .firewall .firewalld true, .firewall .firewalld false,
    .firewall .ufw true, .firewall .ufw false, .firewall .nftables true, .firewall .nftables false,
    .firewall .iptables true, .firewall .iptables false, .networkManager]

/-- Only the commands on addresses have a piece for each of several values. -/
theorem fixed_or_network (shape : Shape) : shape ∈ fixedShapes
    ∨ ∃ families gatewayFour gatewaySix, shape = .network families gatewayFour gatewaySix := by
  cases shape with
  | network families gatewayFour gatewaySix =>
      exact .inr ⟨families, gatewayFour, gatewaySix, rfl⟩
  | swap active => cases active <;> exact .inl (by decide)
  | systemd active => cases active <;> exact .inl (by decide)
  | sysv active => cases active <;> exact .inl (by decide)
  | bootPolicy policy => cases policy <;> exact .inl (by decide)
  | container state => cases state <;> exact .inl (by decide)
  | firewall backend present => cases backend <;> cases present <;> exact .inl (by decide)
  | _ => exact .inl (by decide)

theorem fixedShapes_fit : ∀ shape ∈ fixedShapes, shape.blank.written.Fits := by
  simp only [fixedShapes, List.forall_mem_cons, Shape.blank, Plan.written, hostnameRollback,
    timezoneRollback, timeSyncRollback, permissionsRollback, noSwapRollback, swapRollback,
    swapActiveCommand, swapActiveVerify, systemdRollback, sysvRollback, bootPolicyRollback,
    BootPolicy.command, containerRollback, ContainerState.command, ContainerState.verify,
    inspectContainer, FirewallBackend.rollback, FirewallEntry.firewalld,
    FirewallEntry.firewalldMutation, FirewallEntry.firewalldRule, FirewallEntry.ufw,
    FirewallEntry.ufwMutation, FirewallEntry.nftables, FirewallEntry.nftablesMutation,
    FirewallEntry.markedRows, FirewallEntry.iptables, FirewallEntry.iptablesRule,
    FirewallEntry.marker, networkManagerRollback, ConnectionProfile.fields, List.map_cons,
    List.map_nil]
  repeat rw [fixed_ofList]
  decide +kernel

/-- **In the command of every shape the holes stand where the shell reads them literally.** -/
theorem blank_fits (shape : Shape) : shape.blank.written.Fits := by
  rcases fixed_or_network shape with hfixed | ⟨families, gatewayFour, gatewaySix, rfl⟩
  · exact fixedShapes_fit shape hfixed
  · exact network_fits families gatewayFour gatewaySix

theorem Plan.fits (plan : Plan) : plan.written.Fits :=
  Written.fits_of_emptied (emptied_written plan) (blank_fits plan.shape)

/-! ## §5. The values of a checked plan. -/

@[simp] theorem literals_fixed (text : String) (spans : Spans) :
    literals (fixed text :: spans) = literals spans := rfl

@[simp] theorem literals_number (n : Nat) (spans : Spans) :
    literals (number n :: spans) = (.number, showNat n) :: literals spans := rfl

@[simp] theorem literals_literal (kind : ValueClass) (value : Text) (spans : Spans) :
    literals (.literal kind value :: spans) = (kind, value) :: literals spans := rfl

/-- Every value that is not quoted has passed the check of its class. -/
def Admitted (spans : Spans) : Prop := ∀ entry ∈ literals spans, entry.1.admits entry.2 = true

theorem Admitted.append {spans more : Spans} (h : Admitted spans) (hmore : Admitted more) :
    Admitted (spans ++ more) := by
  intro entry hentry
  rw [literals_append] at hentry
  rcases List.mem_append.mp hentry with h' | h'
  · exact h entry h'
  · exact hmore entry h'

/-- A command of quoted values only. -/
theorem Admitted.ofQuoted {spans : Spans} (h : literals spans = []) : Admitted spans := by
  intro entry hentry
  rw [h] at hentry
  exact absurd hentry List.not_mem_nil

theorem admitted_addresses {f : Cidr → Spans} (h : ∀ cidr, literals (f cidr) = [])
    (addresses : List Cidr) : Admitted (addresses.flatMap f) := by
  apply Admitted.ofQuoted
  rw [literals_flatMap]
  simp [h]

theorem admitted_gateway (interface : Text) (ipv4 : Bool) (gateway : Option IpAddr) :
    Admitted (replaceGateway interface ipv4 gateway) ∧ Admitted (checkGateway interface ipv4 gateway) := by
  cases gateway with
  | none => exact ⟨.ofQuoted rfl, .ofQuoted rfl⟩
  | some gateway => exact ⟨.ofQuoted rfl, .ofQuoted rfl⟩

/-- The literal values of a command, listed. -/
theorem Admitted.ofList {spans : Spans} (entries : List (ValueClass × Text))
    (hliterals : literals spans = entries)
    (h : ∀ entry ∈ entries, entry.1.admits entry.2 = true) : Admitted spans := by
  subst hliterals
  exact h

/-- **The values of a checked plan are admitted by their classes.** -/
theorem Plan.Checked.admitted {plan : Plan} (h : plan.Checked) :
    Admitted plan.written.command ∧ Admitted plan.written.verify := by
  cases plan with
  | hostname name => exact ⟨.ofQuoted rfl, .ofQuoted rfl⟩
  | timezone zone => exact ⟨.ofQuoted rfl, .ofQuoted rfl⟩
  | timeSync ntp =>
      have hntp : ValueClass.flag.admits ntp = true := h
      constructor
      · exact .ofList [(.flag, ntp)] rfl (by simp [hntp])
      · exact .ofList [(.flag, ntp)] rfl (by simp [hntp])
  | permissions path uid gid commandMode mode =>
      obtain ⟨hcommandMode, hmode⟩ := h
      constructor
      · exact .ofList [(.number, showNat uid), (.number, showNat gid), (.mode, commandMode)] rfl
          (by simp [admits_showNat, hcommandMode])
      · exact .ofList [(.number, showNat uid), (.number, showNat gid), (.mode, mode)] rfl
          (by simp [admits_showNat, hmode])
  | noSwap path => exact ⟨.ofQuoted rfl, .ofQuoted rfl⟩
  | swap active path size =>
      have hsize : ∀ entry ∈ [(ValueClass.number, showNat size)], entry.1.admits entry.2 = true := by
        simp [admits_showNat]
      cases active with
      | false => exact ⟨.ofList _ rfl hsize, .ofList _ rfl hsize⟩
      | true => exact ⟨.ofList _ rfl hsize, .ofList _ rfl hsize⟩
  | systemd service active enabled =>
      have hactive : ValueClass.activity.admits active = true := h
      exact ⟨.ofQuoted rfl, .ofList [(.activity, active)] rfl (by simp [hactive])⟩
  | sysv service active =>
      refine ⟨.ofQuoted rfl, .ofQuoted ?_⟩
      show literals (if isActive active then _ else _) = []
      cases isActive active with
      | false => rfl
      | true => rfl
  | bootPolicy service policy =>
      cases policy
      all_goals exact ⟨.ofQuoted rfl, .ofQuoted rfl⟩
  | container runtime target state =>
      have hruntime : ValueClass.runtime.admits runtime = true := h
      have hstates : ValueClass.containerState.admits ContainerState.running.text = true
          ∧ ValueClass.containerState.admits ContainerState.paused.text = true := by decide
      cases state with
      | running =>
          exact ⟨.ofList (List.replicate 3 (.runtime, runtime)) rfl (by simp [hruntime]),
            .ofList [(.runtime, runtime), (.containerState, ContainerState.running.text)] rfl
              (by simp [hruntime, hstates.1])⟩
      | paused =>
          exact ⟨.ofList (List.replicate 4 (.runtime, runtime)) rfl (by simp [hruntime]),
            .ofList [(.runtime, runtime), (.containerState, ContainerState.paused.text)] rfl
              (by simp [hruntime, hstates.2])⟩
      | stopped =>
          exact ⟨.ofList (List.replicate 4 (.runtime, runtime)) rfl (by simp [hruntime]),
            .ofList [(.runtime, runtime)] rfl (by simp [hruntime])⟩
  | firewall backend entry =>
      obtain ⟨hentryId, hprotocol⟩ := h
      obtain ⟨entryId, port, protocol, present⟩ := entry
      -- each backend writes the protocol, the port and the identifier only
      have hvalues : ∀ spans : Spans, (∀ value ∈ literals spans,
          value = (.protocol, protocol) ∨ value = (.number, showNat port)
            ∨ value = (.ruleId, entryId)) → Admitted spans := by
        intro spans hspans value hvalue
        rcases hspans value hvalue with rfl | rfl | rfl
        · exact hprotocol
        · exact admits_showNat port
        · exact hentryId
      cases backend
      all_goals
        cases present
        all_goals
          constructor
          all_goals
            apply hvalues
            intro value hvalue
            simp [Plan.written, FirewallBackend.rollback, FirewallEntry.firewalld,
              FirewallEntry.firewalldMutation, FirewallEntry.firewalldRule, FirewallEntry.marker,
              FirewallEntry.ufw, FirewallEntry.ufwMutation, FirewallEntry.nftables,
              FirewallEntry.nftablesMutation, FirewallEntry.markedRows, FirewallEntry.expectedCount,
              FirewallEntry.iptables, FirewallEntry.iptablesRule] at hvalue
            tauto
  | networkManager connection interface profile => exact ⟨.ofQuoted rfl, .ofQuoted rfl⟩
  | network interface addresses gatewayFour gatewaySix =>
      obtain ⟨hfour, hcheckFour⟩ := admitted_gateway interface true gatewayFour
      obtain ⟨hsix, hcheckSix⟩ := admitted_gateway interface false gatewaySix
      have hflush : Admitted (flushAddresses interface) := .ofQuoted rfl
      have hdrop : Admitted (dropGateways interface) := .ofQuoted rfl
      have hadd := admitted_addresses (f := addAddress interface) (fun _ => rfl) addresses
      have hcheck := admitted_addresses (f := checkAddress interface) (fun _ => rfl) addresses
      have hcounts : ∀ four six, Admitted (checkCounts interface four six) := fun four six =>
        .ofList [(.number, showNat four), (.number, showNat six)] rfl (by simp [admits_showNat])
      exact ⟨(((hflush.append hadd).append hdrop).append hfour).append hsix,
        ((hcheck.append hcheckFour).append hcheckSix).append (hcounts _ _)⟩

/-! ## §6. What the builders check. -/

theorem ensure_eq_ok {check : Bool} {message : String} {u : Unit} :
    ensure check message = .ok u ↔ check = true := by
  unfold ensure
  cases check <;> simp

/-- The pieces are those of a plan that was checked. -/
def Planned (written : Written) : Prop := ∃ plan : Plan, plan.Checked ∧ written = plan.written

theorem buildHostnameRollback_planned {values : SnapshotValues} {written : Written}
    (h : buildHostnameRollback values = .ok written) : Planned written := by
  obtain ⟨name, -, h⟩ := bind_eq_ok.mp h
  obtain ⟨-, -, h⟩ := bind_eq_ok.mp h
  obtain rfl := Except.ok.inj h
  exact ⟨.hostname name, trivial, rfl⟩

theorem buildTimezoneRollback_planned {values : SnapshotValues} {written : Written}
    (h : buildTimezoneRollback values = .ok written) : Planned written := by
  obtain ⟨zone, -, h⟩ := bind_eq_ok.mp h
  obtain ⟨-, -, h⟩ := bind_eq_ok.mp h
  obtain rfl := Except.ok.inj h
  exact ⟨.timezone zone, trivial, rfl⟩

theorem buildTimeSyncRollback_planned {values : SnapshotValues} {written : Written}
    (h : buildTimeSyncRollback values = .ok written) : Planned written := by
  obtain ⟨ntp, -, h⟩ := bind_eq_ok.mp h
  obtain ⟨_, hcheck, h⟩ := bind_eq_ok.mp h
  obtain rfl := Except.ok.inj h
  have hntp : ValueClass.flag.admits ntp = true := by
    have hflag := ensure_eq_ok.mp hcheck
    simp only [bne, Bool.not_and, Bool.not_not] at hflag
    exact hflag
  exact ⟨.timeSync ntp, hntp, rfl⟩

theorem buildPermissionsRollback_planned {values : SnapshotValues} {written : Written}
    (h : buildPermissionsRollback values = .ok written) : Planned written := by
  obtain ⟨path, -, h⟩ := bind_eq_ok.mp h
  obtain ⟨-, -, h⟩ := bind_eq_ok.mp h
  obtain ⟨uid, -, h⟩ := bind_eq_ok.mp h
  obtain ⟨gid, -, h⟩ := bind_eq_ok.mp h
  obtain ⟨mode, -, h⟩ := bind_eq_ok.mp h
  obtain ⟨_, hcheck, h⟩ := bind_eq_ok.mp h
  obtain rfl := Except.ok.inj h
  obtain ⟨hlength, hoctal⟩ := Bool.and_eq_true_iff.mp (ensure_eq_ok.mp hcheck)
  have hne : mode ≠ [] := by
    rintro rfl
    exact absurd hlength (by decide)
  have hmode : ValueClass.mode.admits mode = true := by
    show (!mode.isEmpty && mode.all isOctal) = true
    simp [hne, hoctal]
  -- the digit in front is an octal one
  have hcommandMode : ValueClass.mode.admits (if utf8Len mode = 3 then '0' :: mode else mode) = true := by
    by_cases hshort : utf8Len mode = 3
    · rw [if_pos hshort]
      show (!('0' :: mode).isEmpty && ('0' :: mode).all isOctal) = true
      rw [List.all_cons, hoctal]
      rfl
    · rw [if_neg hshort]
      exact hmode
  exact ⟨.permissions path uid gid _ mode, ⟨hcommandMode, hmode⟩, rfl⟩

theorem buildSwapRollback_planned {values : SnapshotValues} {written : Written}
    (h : buildSwapRollback values = .ok written) : Planned written := by
  obtain ⟨path, -, h⟩ := bind_eq_ok.mp h
  obtain ⟨-, -, h⟩ := bind_eq_ok.mp h
  obtain ⟨existed, -, h⟩ := bind_eq_ok.mp h
  obtain ⟨active, -, h⟩ := bind_eq_ok.mp h
  obtain ⟨sizeText, -, h⟩ := bind_eq_ok.mp h
  obtain ⟨size, -, h⟩ := bind_eq_ok.mp h
  obtain ⟨-, -, h⟩ := bind_eq_ok.mp h
  cases existed with
  | true =>
      obtain rfl := Except.ok.inj h
      exact ⟨.swap active path size, trivial, rfl⟩
  | false =>
      obtain rfl := Except.ok.inj h
      exact ⟨.noSwap path, trivial, rfl⟩

theorem buildServiceActionRollback_planned {values : SnapshotValues} {written : Written}
    (h : buildServiceActionRollback values = .ok written) : Planned written := by
  obtain ⟨manager, -, h⟩ := bind_eq_ok.mp h
  obtain ⟨service, -, h⟩ := bind_eq_ok.mp h
  obtain ⟨active, -, h⟩ := bind_eq_ok.mp h
  obtain ⟨enabled, -, h⟩ := bind_eq_ok.mp h
  obtain ⟨-, -, h⟩ := bind_eq_ok.mp h
  obtain ⟨_, hcheck, h⟩ := bind_eq_ok.mp h
  have hactive : ValueClass.activity.admits active = true := ensure_eq_ok.mp hcheck
  by_cases hsystemd : manager = "systemd".toList
  · rw [if_pos hsystemd] at h
    obtain ⟨-, -, h⟩ := bind_eq_ok.mp h
    obtain rfl := Except.ok.inj h
    exact ⟨.systemd service active enabled, hactive, rfl⟩
  · rw [if_neg hsystemd] at h
    split at h
    next =>
      obtain rfl := Except.ok.inj h
      exact ⟨.sysv service active, hactive, rfl⟩
    next => cases h

theorem buildServicePolicyRollback_planned {values : SnapshotValues} {written : Written}
    (h : buildServicePolicyRollback values = .ok written) : Planned written := by
  obtain ⟨manager, -, h⟩ := bind_eq_ok.mp h
  obtain ⟨-, -, h⟩ := bind_eq_ok.mp h
  obtain ⟨service, -, h⟩ := bind_eq_ok.mp h
  obtain ⟨-, -, h⟩ := bind_eq_ok.mp h
  obtain ⟨active, -, h⟩ := bind_eq_ok.mp h
  obtain ⟨-, -, h⟩ := bind_eq_ok.mp h
  obtain ⟨enabled, -, h⟩ := bind_eq_ok.mp h
  obtain ⟨policy, -, h⟩ := bind_eq_ok.mp h
  obtain rfl := Except.ok.inj h
  exact ⟨.bootPolicy service policy, trivial, rfl⟩

theorem buildContainerRollback_planned {values : SnapshotValues} {written : Written}
    (h : buildContainerRollback values = .ok written) : Planned written := by
  obtain ⟨runtime, -, h⟩ := bind_eq_ok.mp h
  obtain ⟨_, hcheck, h⟩ := bind_eq_ok.mp h
  obtain ⟨target, -, h⟩ := bind_eq_ok.mp h
  obtain ⟨-, -, h⟩ := bind_eq_ok.mp h
  obtain ⟨stateText, -, h⟩ := bind_eq_ok.mp h
  obtain ⟨state, -, h⟩ := bind_eq_ok.mp h
  obtain rfl := Except.ok.inj h
  exact ⟨.container runtime target state, ensure_eq_ok.mp hcheck, rfl⟩

/-- A letter that is not changed by lowering is the same letter. -/
theorem isSafeChar_of_lower {c : Char} (h : isSafeChar (toAsciiLower c) = true) :
    isSafeChar c = true := by
  unfold toAsciiLower at h
  by_cases hupper : 'A' ≤ c ∧ c ≤ 'Z'
  · simp [isSafeChar, isAsciiAlphanumeric, hupper]
  · rw [if_neg hupper] at h
    exact h

/-- **The identifier of a rule consists of digits, letters and hyphens.** -/
theorem isRuleId_admits [UuidCrate] {entryId : Text} (h : isRuleId entryId = true) :
    ValueClass.ruleId.admits entryId = true := by
  unfold isRuleId at h
  split at h
  next => cases h
  next parsed _ =>
    simp only [Bool.not_or, Bool.and_eq_true, bne, Bool.not_not, beq_iff_eq] at h
    have hlower : UuidCrate.hyphenated parsed = entryId.map toAsciiLower := h.2
    have hne : entryId ≠ [] := by
      rintro rfl
      exact UuidCrate.hyphenated_ne_nil parsed hlower
    have hchars : ∀ c ∈ entryId, isSafeChar c = true := by
      intro c hc
      apply isSafeChar_of_lower
      have hmem : toAsciiLower c ∈ UuidCrate.hyphenated parsed := by
        rw [hlower]
        exact List.mem_map_of_mem hc
      rcases UuidCrate.hyphenated_chars parsed _ hmem with heq | hdigit | ⟨hlow, hhigh⟩
      · rw [heq]
        decide
      · apply isSafeChar_of_digit
        simp only [Char.isDigit, Bool.and_eq_true, decide_eq_true_eq] at hdigit
        simp only [isAsciiDigit, Bool.and_eq_true, decide_eq_true_eq]
        exact hdigit
      · have hz : toAsciiLower c ≤ 'z' := le_trans hhigh (by decide)
        simp [isSafeChar, isAsciiAlphanumeric, hlow, hz]
    show (!entryId.isEmpty && entryId.all isSafeChar) = true
    simp [hne, List.all_eq_true.mpr hchars]

theorem buildFirewallRollback_planned [UuidCrate] {values : SnapshotValues} {written : Written}
    (h : buildFirewallRollback values = .ok written) : Planned written := by
  obtain ⟨backendText, -, h⟩ := bind_eq_ok.mp h
  obtain ⟨entryId, -, h⟩ := bind_eq_ok.mp h
  obtain ⟨_, hentryId, h⟩ := bind_eq_ok.mp h
  obtain ⟨port, -, h⟩ := bind_eq_ok.mp h
  obtain ⟨-, -, h⟩ := bind_eq_ok.mp h
  obtain ⟨protocol, -, h⟩ := bind_eq_ok.mp h
  obtain ⟨_, hprotocol, h⟩ := bind_eq_ok.mp h
  obtain ⟨present, -, h⟩ := bind_eq_ok.mp h
  obtain ⟨backend, -, h⟩ := bind_eq_ok.mp h
  obtain rfl := Except.ok.inj h
  exact ⟨.firewall backend ⟨entryId, port, protocol, present⟩,
    ⟨isRuleId_admits (ensure_eq_ok.mp hentryId), ensure_eq_ok.mp hprotocol⟩, rfl⟩

theorem buildNetworkManagerRollback_planned {values : SnapshotValues} {written : Written}
    (h : buildNetworkManagerRollback values = .ok written) : Planned written := by
  obtain ⟨backend, -, h⟩ := bind_eq_ok.mp h
  obtain ⟨-, -, h⟩ := bind_eq_ok.mp h
  obtain ⟨interface, -, h⟩ := bind_eq_ok.mp h
  obtain ⟨-, -, h⟩ := bind_eq_ok.mp h
  obtain ⟨connection, -, h⟩ := bind_eq_ok.mp h
  obtain ⟨fourMethod, -, h⟩ := bind_eq_ok.mp h
  obtain ⟨fourAddresses, -, h⟩ := bind_eq_ok.mp h
  obtain ⟨fourGateway, -, h⟩ := bind_eq_ok.mp h
  obtain ⟨sixMethod, -, h⟩ := bind_eq_ok.mp h
  obtain ⟨sixAddresses, -, h⟩ := bind_eq_ok.mp h
  obtain ⟨sixGateway, -, h⟩ := bind_eq_ok.mp h
  obtain rfl := Except.ok.inj h
  exact ⟨.networkManager connection interface _, trivial, rfl⟩

theorem buildNetworkRollback_planned {values : SnapshotValues} {written : Written}
    (h : buildNetworkRollback values = .ok written) : Planned written := by
  obtain ⟨interface, -, h⟩ := bind_eq_ok.mp h
  obtain ⟨-, -, h⟩ := bind_eq_ok.mp h
  obtain ⟨addressesText, -, h⟩ := bind_eq_ok.mp h
  obtain ⟨addresses, -, h⟩ := bind_eq_ok.mp h
  obtain ⟨-, -, h⟩ := bind_eq_ok.mp h
  obtain ⟨gatewayFour, -, h⟩ := bind_eq_ok.mp h
  obtain ⟨gatewaySix, -, h⟩ := bind_eq_ok.mp h
  obtain rfl := Except.ok.inj h
  exact ⟨.network interface addresses gatewayFour gatewaySix, trivial, rfl⟩

/-- **Every builder writes the pieces of a plan that it has checked.** -/
theorem build_planned [UuidCrate] {task : SnapshotTask} {values : SnapshotValues}
    {written : Written} (h : task.build values = .ok written) : Planned written := by
  cases task with
  | hostnameChange => exact buildHostnameRollback_planned h
  | timezoneChange => exact buildTimezoneRollback_planned h
  | timeSyncChange => exact buildTimeSyncRollback_planned h
  | filePermissions => exact buildPermissionsRollback_planned h
  | swapManage => exact buildSwapRollback_planned h
  | serviceAction => exact buildServiceActionRollback_planned h
  | bootPolicy => exact buildServicePolicyRollback_planned h
  | containerAction => exact buildContainerRollback_planned h
  | firewallOpenPort => exact buildFirewallRollback_planned h
  | ipChange =>
      unfold SnapshotTask.build at h
      dsimp only at h
      split at h
      next => exact buildNetworkManagerRollback_planned h
      next => exact buildNetworkRollback_planned h

/-! ## §7. The fields that a builder reads. -/

/-- The names of the fields that the builder of a task asks for. -/
def SnapshotTask.fields : SnapshotTask → List String
  | .hostnameChange => ["hostname"]
  | .timezoneChange => ["timezone"]
  | .timeSyncChange => ["ntp"]
  | .filePermissions => ["path", "uid", "gid", "mode"]
  | .swapManage => ["path", "exists", "active", "size"]
  | .serviceAction => ["manager", "service", "active", "enabled"]
  | .bootPolicy => ["manager", "service", "active", "enabled"]
  | .containerAction => ["runtime", "container", "state"]
  | .firewallOpenPort => ["backend", "entryid", "port", "protocol", "present"]
  | .ipChange => ["backend", "interface", "connectionb", "ipfourmethodb", "ipfouraddressesb",
      "ipfourgatewayb", "ipsixmethodb", "ipsixaddressesb", "ipsixgatewayb", "addresses",
      "gatewayfour", "gatewaysix"]

/-- The values agree on the fields of the task. -/
def SameFields (task : SnapshotTask) (values values' : SnapshotValues) : Prop :=
  ∀ key ∈ task.fields, values'.get? key.toList = values.get? key.toList

/-- **A builder reads the fields of its task only.** -/
theorem build_congr [UuidCrate] {task : SnapshotTask} {values values' : SnapshotValues}
    (h : SameFields task values values') : task.build values' = task.build values := by
  unfold SameFields at h
  cases task
  all_goals
    simp only [SnapshotTask.fields, List.forall_mem_cons] at h
    simp only [SnapshotTask.build, buildHostnameRollback, buildTimezoneRollback,
      buildTimeSyncRollback, buildPermissionsRollback, buildSwapRollback,
      buildServiceActionRollback, buildServicePolicyRollback, buildContainerRollback,
      buildFirewallRollback, buildNetworkManagerRollback, buildNetworkRollback,
      parseSnapshotGateway, parseSnapshotBool, parseBoundedU32, requiredSnapshotValue,
      decodeSnapshotBase64, h]

/-! ## §8. The claim about the command. -/

/-- The text of a plan's command as the shell reads it. -/
structure ReadsAsPlan (plan : Plan) (result : SnapshotRollbackCommand) : Prop where
  /-- The text is put together from the plan's pieces. -/
  rendered : result = plan.written.rendered
  /-- A value that is not quoted has passed the check of its class. -/
  admitted : Admitted plan.written.command ∧ Admitted plan.written.verify
  /-- The shell reads the program's text, and the values as literal characters. -/
  command : visible LexState.start result.command
    = spelled (outline LexState.start plan.written.command) (values plan.written.command)
  verify : visible LexState.start result.verify
    = spelled (outline LexState.start plan.written.verify) (values plan.written.verify)
  /-- How the program's text is read is settled by the shape of the plan. -/
  sameShape : ∀ plan' : Plan, plan'.shape = plan.shape →
    outline LexState.start plan'.written.command = outline LexState.start plan.written.command
      ∧ outline LexState.start plan'.written.verify = outline LexState.start plan.written.verify

theorem Plan.Checked.reads {plan : Plan} (h : plan.Checked) :
    ReadsAsPlan plan plan.written.rendered := by
  obtain ⟨hcommand, hverify⟩ := h.admitted
  refine ⟨rfl, ⟨hcommand, hverify⟩, ?_, ?_, ?_⟩
  · exact visible_render plan.fits.command fun entry hentry => ValueClass.inert (hcommand entry hentry)
  · exact visible_render plan.fits.verify fun entry hentry => ValueClass.inert (hverify entry hentry)
  · intro plan' hshape
    have hsame : plan'.written.emptied = plan.written.emptied := by
      rw [emptied_written, hshape, ← emptied_written]
    exact ⟨outline_congr (congrArg Written.command hsame) _,
      outline_congr (congrArg Written.verify hsame) _⟩

/-- The snapshot puts no code into the command: the shell reads the parsed values literally,
and what was not parsed does not matter. -/
def CarriesNoCode [UuidCrate] (taskId snapshot : Text) (result : SnapshotRollbackCommand) : Prop :=
  ∃ task values plan, SnapshotTask.ofText? taskId = some task
    ∧ parseSnapshotValues snapshot = .ok values
    ∧ task.build values = .ok plan.written
    ∧ ReadsAsPlan plan result
    ∧ ∀ snapshot' values', parseSnapshotValues snapshot' = .ok values' →
        SameFields task values values' → buildSnapshotRollbackCommand taskId snapshot' = .ok result

/-- **A command that is built from a snapshot carries no code of it.** -/
theorem snapshot_rollback_carries_no_code [UuidCrate] {taskId snapshot : Text}
    {result : SnapshotRollbackCommand}
    (h : buildSnapshotRollbackCommand taskId snapshot = .ok result) :
    CarriesNoCode taskId snapshot result := by
  obtain ⟨values, hvalues, hrest⟩ := bind_eq_ok.mp h
  obtain ⟨written, hwritten, hresult⟩ := bind_eq_ok.mp hrest
  obtain rfl := Except.ok.inj hresult
  unfold writeSnapshotRollback at hwritten
  cases htask : SnapshotTask.ofText? taskId with
  | none =>
      rw [htask] at hwritten
      cases hwritten
  | some task =>
      rw [htask] at hwritten
      obtain ⟨plan, hchecked, rfl⟩ := build_planned hwritten
      refine ⟨task, values, plan, htask, hvalues, hwritten, hchecked.reads, ?_⟩
      intro snapshot' values' hvalues' hsame
      refine bind_eq_ok.mpr ⟨values', hvalues', bind_eq_ok.mpr ⟨plan.written, ?_, rfl⟩⟩
      unfold writeSnapshotRollback
      rw [htask]
      exact (build_congr hsame).trans hwritten

/-- A snapshot with a field that is not asked for. -/
def sampleSnapshot : Text :=
  "stdout:\nhostname=web-1\nnote=$(reboot)\n\nstderr:\n;reboot".toList

theorem hostname_carries_no_code :
    let _ : UuidCrate := hyphenatedUuid
    CarriesNoCode "system.hostname_change".toList sampleSnapshot
      ⟨"hostnamectl set-hostname -- 'web-1'".toList, "test \"$(hostname)\" = 'web-1'".toList⟩ :=
  let _ : UuidCrate := hyphenatedUuid
  snapshot_rollback_carries_no_code (by decide)

end QingzhouSSH.Services.SnapshotRollback
