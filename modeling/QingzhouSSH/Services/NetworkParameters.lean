/-
  QingzhouSSH.Services.NetworkParameters — the parameters of an address change, kept as text.

  A run stores the summary of its parameters.  When the client starts again and an address
  change is still open, its parameters are read back from that summary.

  Main results:
    * `ipChange_entries` — what is accepted for the address change;
    * `parseNetworkParameterSummary_joined` — four fields that are joined are read back;
    * `network_parameters_roundtrip` — the parameters read back are the accepted ones.
-/
import QingzhouSSH.Lib.NetChars
import QingzhouSSH.Lib.Splitting
import QingzhouSSH.Services.OperationPreview

namespace QingzhouSSH.Services.NetworkParameters

open QingzhouSSH.Lib
open QingzhouSSH.Lib.Net
open QingzhouSSH.Core.Tasks
open QingzhouSSH.Services.OperationPreview

/-! ## §1. Reading a summary. -/

def summaryFields : List Text :=
  ["interface".toList, "cidr".toList, "gateway".toList, "rollbackSeconds".toList]

/-- `value.parse::<u64>()` as a JSON number. -/
def parseU64 (value : Text) : Option JsonInt :=
  (parseUnsigned (2 ^ 64) value).bind fun n =>
    if h : n < 2 ^ 64 then some { val := n, inRange := by omega } else none

/-- One item of the summary: a field of the four that has not been read. -/
def parseSummaryItem (object : List (Text × Value)) (item : Text) :
    AppResult (List (Text × Value)) :=
  match splitOnce '=' item with
  | none => .error (.integrity "IP 修改运行参数摘要格式无效".toList)
  | some (name, value) =>
      if !summaryFields.contains name || (Value.getField object name).isSome then
        .error (.integrity "IP 修改运行参数摘要包含未知或重复字段".toList)
      else if name = "rollbackSeconds".toList then
        match parseU64 value with
        | none => .error (.integrity "自动恢复等待时间无效".toList)
        | some seconds => .ok (OrdMap.insertEntry name (.int seconds) object)
      else .ok (OrdMap.insertEntry name (.string value) object)

def parseNetworkParameterSummary (summary : Text) : AppResult Value := do
  let object ← (Splitting.splitPair ',' ' ' summary).foldlM parseSummaryItem []
  if object.length ≠ 4 then .error (.integrity "IP 修改运行参数摘要不完整".toList)
  else .ok (.object object)

/-! ## §2. Accepted parameters. -/

section Accepted

variable [UuidCrate]

/-- The value of a declaration: the given one, or the default. -/
def given (object : List (Text × Value)) (d : ParameterDefinition) : Option Value :=
  (Value.getField object d.name).or d.defaultValue

/-- A declaration that is required, or has a default, has a value that is checked. -/
theorem validateDeclared_given {object : List (Text × Value)} {d : ParameterDefinition}
    {rest : List ParameterDefinition} {start out : ValidatedParameters}
    (hd : d.required = true ∨ d.defaultValue ≠ none)
    (h : validateDeclared object (d :: rest) start = .ok out) :
    ∃ v sv, given object d = some v ∧ validateValue d v = .ok sv
      ∧ validateDeclared object rest
          (start.insert d.name { value := v, shellValue := sv, sensitive := d.sensitive })
        = .ok out := by
  rw [validateDeclared] at h
  split at h
  next hnone =>
    have hrequired : d.required = true := by
      refine hd.resolve_right fun hdefault => hdefault ?_
      exact (Option.or_eq_none_iff.mp hnone).2
    rw [if_pos hrequired] at h
    cases h
  next v hsome =>
    obtain ⟨sv, hsv, h⟩ := bind_eq_ok.mp h
    exact ⟨v, sv, hsome, hsv, h⟩

/-- Declarations that have the same values are accepted alike. -/
theorem validateDeclared_congr {object object' : List (Text × Value)}
    {parameters : List ParameterDefinition} (h : ∀ d ∈ parameters, given object d = given object' d)
    (start : ValidatedParameters) :
    validateDeclared object parameters start = validateDeclared object' parameters start := by
  induction parameters generalizing start with
  | nil => rfl
  | cons d rest ih =>
      have hhead : (Value.getField object d.name).or d.defaultValue
          = (Value.getField object' d.name).or d.defaultValue := h d List.mem_cons_self
      have htail := ih fun p hp => h p (List.mem_cons_of_mem d hp)
      rw [validateDeclared, validateDeclared, hhead]
      simp only [htail]

/-- An accepted integer. -/
theorem integer_ok {d : ParameterDefinition} {min max : Int} {v : Value} {sv : Text}
    (hkind : d.kind = .integer min max) (h : validateValue d v = .ok sv) :
    ∃ n : JsonInt, v = .int n ∧ min ≤ n.val ∧ sv = showInt n.val := by
  unfold validateValue at h
  rw [hkind] at h
  dsimp only at h
  split at h
  next => cases h
  next m hm =>
    obtain ⟨n, rfl, rfl⟩ := asI64_eq_some hm
    split at h
    next => cases h
    next hrange =>
      simp only [Bool.or_eq_true, decide_eq_true_eq, not_or, not_lt] at hrange
      exact ⟨n, rfl, hrange.1, (Except.ok.inj h).symm⟩

/-- The entry of a text. -/
def textEntry (value : Text) : ValidatedParameter where
  value := .string value
  shellValue := shellQuote value
  sensitive := false

def secondsEntry (seconds : JsonInt) : ValidatedParameter where
  value := .int seconds
  shellValue := showInt seconds.val
  sensitive := false

/-- The four parameters of an address change. -/
structure IpChangeValues where
  interface : Text
  cidr : Text
  gateway : Text
  seconds : JsonInt
  isInterface : isInterfaceName interface = true
  isCidr : isCidr cidr = true
  isHost : isHost gateway = true
  nonneg : 0 ≤ seconds.val

namespace IpChangeValues

/-- The validated map, in the order of the names. -/
def entries (values : IpChangeValues) : List (Text × ValidatedParameter) :=
  [("cidr".toList, textEntry values.cidr), ("gateway".toList, textEntry values.gateway),
    ("interface".toList, textEntry values.interface),
    ("rollbackSeconds".toList, secondsEntry values.seconds)]

/-- The object that a summary is read back to. -/
def object (values : IpChangeValues) : List (Text × Value) :=
  [("cidr".toList, .string values.cidr), ("gateway".toList, .string values.gateway),
    ("interface".toList, .string values.interface),
    ("rollbackSeconds".toList, .int values.seconds)]

end IpChangeValues

/-- **What is accepted for the address change has the four parameters, each as declared.** -/
theorem ipChange_entries {object : List (Text × Value)} {parameters : ValidatedParameters}
    (h : validateDeclared object Catalog.ipChange.parameters OrdMap.empty = .ok parameters) :
    ∃ values : IpChangeValues, parameters.entries = values.entries
      ∧ ∀ d ∈ Catalog.ipChange.parameters, given object d = given values.object d := by
  obtain ⟨v₁, s₁, hv₁, hs₁, h⟩ := validateDeclared_given (.inl rfl) h
  obtain ⟨v₂, s₂, hv₂, hs₂, h⟩ := validateDeclared_given (.inl rfl) h
  obtain ⟨v₃, s₃, hv₃, hs₃, h⟩ := validateDeclared_given (.inl rfl) h
  obtain ⟨v₄, s₄, hv₄, hs₄, h⟩ := validateDeclared_given (.inr (Option.some_ne_none _)) h
  obtain ⟨interface, rfl, hinterface, rfl⟩ := checkedString_ok hs₁
  obtain ⟨cidr, rfl, hcidr, rfl⟩ := checkedString_ok hs₂
  obtain ⟨gateway, rfl, hgateway, rfl⟩ := checkedString_ok hs₃
  obtain ⟨seconds, rfl, hseconds, rfl⟩ := integer_ok rfl hs₄
  refine ⟨{ interface := interface, cidr := cidr, gateway := gateway, seconds := seconds,
            isInterface := hinterface, isCidr := hcidr, isHost := hgateway,
            nonneg := by omega }, ?_, ?_⟩
  · rw [← Except.ok.inj h]
    rfl
  · exact List.forall_mem_cons.mpr ⟨hv₁, List.forall_mem_cons.mpr ⟨hv₂,
      List.forall_mem_cons.mpr ⟨hv₃, List.forall_mem_cons.mpr ⟨hv₄, nofun⟩⟩⟩⟩

end Accepted

/-! ## §3. The texts of the values. -/

section Texts

/-- No character of this class is a comma. -/
theorem comma_free_of_class {value : Text} {p : Char → Bool} (hp : p ',' = false)
    (h : ∀ c ∈ value, p c = true) : ',' ∉ value := by
  intro hc
  have hcomma := h ',' hc
  rw [hp] at hcomma
  cases hcomma

theorem comma_free_interface {value : Text} (h : isInterfaceName value = true) : ',' ∉ value := by
  unfold isInterfaceName at h
  rw [Bool.and_eq_true, List.all_eq_true] at h
  exact comma_free_of_class (by decide) h.2

theorem comma_free_host {value : Text} (h : isHost value = true) : ',' ∉ value := by
  unfold isHost at h
  simp only [Bool.and_eq_true] at h
  exact comma_free_of_class (by decide) (List.all_eq_true.mp h.1.2)

theorem comma_free_cidr {value : Text} (h : isCidr value = true) : ',' ∉ value := by
  unfold isCidr splitOnce at h
  split at h
  next => cases h
  next address suffix hsplit =>
    rw [Text.splitFirst_some hsplit]
    split at h
    next => cases h
    next =>
      split at h
      next => cases h
      next ip hip =>
        split at h
        next => cases h
        next bits hbits =>
          have haddress : ',' ∉ address :=
            comma_free_of_class (by decide) (chars_of_parseIpAddr hip)
          have hsuffix : ',' ∉ suffix := by
            intro hc
            rcases digits_of_parseUnsigned (by rw [hbits]; rfl) ',' hc with hplus | hdigit
            · exact absurd hplus (by decide)
            · exact absurd hdigit (by decide)
          intro hc
          rcases List.mem_append.mp hc with hc | hc
          · rcases List.mem_append.mp hc with hc | hc
            · exact haddress hc
            · exact absurd hc (by decide)
          · exact hsuffix hc

theorem comma_free_int (n : Int) : ',' ∉ showInt n :=
  comma_free_of_class (by decide) (showInt_numeral n)

/-- A number that is printed is read back. -/
theorem parseU64_showInt {n : JsonInt} (h : 0 ≤ n.val) : parseU64 (showInt n.val) = some n := by
  obtain ⟨val, inRange⟩ := n
  obtain ⟨m, rfl⟩ := Int.eq_ofNat_of_zero_le h
  have hm : m < 2 ^ 64 := by
    have := inRange.2
    omega
  unfold parseU64
  show (parseUnsigned (2 ^ 64) (Nat.toDigits 10 m)).bind _ = _
  rw [parseUnsigned_toDigits hm]
  show (if h : m < 2 ^ 64 then some (_ : JsonInt) else none) = _
  rw [dif_pos hm]

end Texts

/-! ## §4. Reading back. -/

theorem splitOnce_field {name : Text} (h : '=' ∉ name) (value : Text) :
    splitOnce '=' (name ++ '=' :: value) = some (name, value) :=
  Text.splitFirst_singleton h value

/-- The text of the entry of one of the names. -/
theorem parseSummaryItem_text {object : List (Text × Value)} {name : Text}
    (hknown : summaryFields.contains name = true) (hname : '=' ∉ name)
    (hseconds : name ≠ "rollbackSeconds".toList) (hnew : Value.getField object name = none)
    (value : Text) : parseSummaryItem object (assignment (name, textEntry value))
      = .ok (OrdMap.insertEntry name (.string value) object) := by
  have hsplit : splitOnce '=' (assignment (name, textEntry value)) = some (name, value) :=
    splitOnce_field hname value
  unfold parseSummaryItem
  rw [hsplit]
  dsimp only
  rw [hknown, hnew, if_neg (by decide), if_neg hseconds]

theorem parseSummaryItem_seconds {object : List (Text × Value)}
    (hnew : Value.getField object "rollbackSeconds".toList = none) {seconds : JsonInt}
    (h : 0 ≤ seconds.val) :
    parseSummaryItem object (assignment ("rollbackSeconds".toList, secondsEntry seconds))
      = .ok (OrdMap.insertEntry "rollbackSeconds".toList (.int seconds) object) := by
  have hsplit : splitOnce '=' (assignment ("rollbackSeconds".toList, secondsEntry seconds))
      = some ("rollbackSeconds".toList, showInt seconds.val) :=
    @splitOnce_field "rollbackSeconds".toList (by decide) _
  unfold parseSummaryItem
  rw [hsplit]
  dsimp only
  rw [hnew, if_neg (by decide), if_pos rfl, parseU64_showInt h]

/-- **The summary of the four entries is read back to their values.** -/
theorem parseNetworkParameterSummary_joined (values : IpChangeValues) :
    parseNetworkParameterSummary (List.intercalate [',', ' '] (values.entries.map assignment))
      = .ok (.object values.object) := by
  have hparts : Splitting.splitPair ',' ' '
      (List.intercalate [',', ' '] (values.entries.map assignment))
      = values.entries.map assignment := by
    apply Splitting.splitPair_intercalate (List.cons_ne_nil _ _)
    have hfield : ∀ name value : Text, ',' ∉ name → ',' ∉ value → ',' ∉ name ++ '=' :: value := by
      intro name value hname hvalue hc
      rcases List.mem_append.mp hc with hc | hc
      · exact hname hc
      · rcases List.mem_cons.mp hc with hc | hc
        · exact absurd hc (by decide)
        · exact hvalue hc
    intro part hpart
    rcases List.mem_cons.mp hpart with rfl | hpart
    · exact hfield "cidr".toList _ (by decide) (comma_free_cidr values.isCidr)
    rcases List.mem_cons.mp hpart with rfl | hpart
    · exact hfield "gateway".toList _ (by decide) (comma_free_host values.isHost)
    rcases List.mem_cons.mp hpart with rfl | hpart
    · exact hfield "interface".toList _ (by decide) (comma_free_interface values.isInterface)
    rcases List.mem_cons.mp hpart with rfl | hpart
    · exact hfield "rollbackSeconds".toList _ (by decide) (comma_free_int values.seconds.val)
    · exact absurd hpart List.not_mem_nil
  have hcidr := @parseSummaryItem_text [] "cidr".toList (by decide) (by decide) (by decide) rfl
    values.cidr
  have hgateway := @parseSummaryItem_text [("cidr".toList, .string values.cidr)]
    "gateway".toList (by decide) (by decide) (by decide) rfl values.gateway
  have hinterface := @parseSummaryItem_text [("cidr".toList, .string values.cidr),
    ("gateway".toList, .string values.gateway)] "interface".toList (by decide) (by decide)
    (by decide) rfl values.interface
  have hseconds := @parseSummaryItem_seconds [("cidr".toList, .string values.cidr),
    ("gateway".toList, .string values.gateway), ("interface".toList, .string values.interface)]
    rfl values.seconds values.nonneg
  have hfold : (values.entries.map assignment).foldlM parseSummaryItem []
      = .ok values.object :=
    bind_eq_ok.mpr ⟨_, hcidr, bind_eq_ok.mpr ⟨_, hgateway, bind_eq_ok.mpr ⟨_, hinterface,
      bind_eq_ok.mpr ⟨_, hseconds, rfl⟩⟩⟩⟩
  unfold parseNetworkParameterSummary
  rw [hparts, hfold]
  rfl

/-- **The parameters that are read back from the summary of an accepted address change are
accepted as the same parameters.** -/
theorem network_parameters_roundtrip [UuidCrate] {input : Value} {parameters : ValidatedParameters}
    (h : validateParameters Catalog.ipChange input = .ok parameters) :
    ∃ summary parsed, parameterSummary parameters = some summary
      ∧ parseNetworkParameterSummary summary = .ok parsed
      ∧ validateParameters Catalog.ipChange parsed = .ok parameters := by
  obtain ⟨object, rfl, hdeclared, hconstraints⟩ := validateParameters_ok h
  obtain ⟨values, hentries, hgiven⟩ := ipChange_entries hdeclared
  refine ⟨summaryText parameters, .object values.object, ?_, ?_, ?_⟩
  · unfold parameterSummary
    rw [if_neg]
    intro hempty
    unfold summaryText at hempty
    rw [hentries, List.isEmpty_iff] at hempty
    cases hempty
  · unfold summaryText
    rw [hentries]
    exact parseNetworkParameterSummary_joined values
  · rw [validateDeclared_congr hgiven] at hdeclared
    have hknown : values.object.find?
        (fun f => !Catalog.ipChange.parameters.any fun p => p.name == f.1) = none := rfl
    unfold validateParameters Value.asObject
    dsimp only
    rw [hknown]
    exact bind_eq_ok.mpr ⟨parameters, hdeclared, bind_eq_ok.mpr ⟨(), hconstraints, rfl⟩⟩

def sampleChange : Value :=
  .object [("cidr".toList, .string "fd00::5/64".toList),
    ("gateway".toList, .string "fd00::1".toList), ("interface".toList, .string "eth0".toList)]

/-- The waiting time is the default. -/
theorem sampleChange_comes_back : let _ : UuidCrate := hyphenatedUuid
    ∃ parameters, validateParameters Catalog.ipChange sampleChange = .ok parameters
      ∧ ∃ summary parsed, parameterSummary parameters = some summary
        ∧ parseNetworkParameterSummary summary = .ok parsed
        ∧ validateParameters Catalog.ipChange parsed = .ok parameters := by
  let _ : UuidCrate := hyphenatedUuid
  have haccepted : (validateParameters Catalog.ipChange sampleChange).toBool = true := by
    decide
  have heq := eq_ok_acceptedOrEmpty haccepted
  exact ⟨_, heq, network_parameters_roundtrip heq⟩

end QingzhouSSH.Services.NetworkParameters
