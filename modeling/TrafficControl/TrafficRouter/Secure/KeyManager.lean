import Mathlib.Data.List.Infix
import TrafficControl.Lib.PutAll

set_option autoImplicit false

namespace TrafficControl.TrafficRouter.Secure

structure HandshakeData where
  hostname : String
deriving DecidableEq

-- `replaceFirst("\\*\\.", "")`
def replaceFirst : List Char → List Char
  | '*' :: '.' :: rest => rest
  | c :: rest => c :: replaceFirst rest
  | [] => []

namespace HandshakeData

def aliasName (data : HandshakeData) : String := String.ofList (replaceFirst data.hostname.toList)

def wildcard? (data : HandshakeData) : Option (List Char) :=
  match data.hostname.toList with
  | '*' :: '.' :: domain => some domain
  | _ => none

-- The certificate is for this server name: its hostname, or a name below a wildcard's domain.
def Matches (data : HandshakeData) (name : String) : Prop :=
  match data.wildcard? with
  | some domain => '.' :: domain <:+ name.toList
  | none => name = data.hostname

instance (data : HandshakeData) (name : String) : Decidable (data.Matches name) := by
  unfold Matches
  split <;> infer_instance

-- A hostname is exact, without the text `*.`, or starts with it.
def WellFormed (data : HandshakeData) : Prop :=
  data.wildcard?.isSome ∨ replaceFirst data.hostname.toList = data.hostname.toList

instance (data : HandshakeData) : Decidable data.WellFormed := inferInstanceAs (Decidable (_ ∨ _))

end HandshakeData

-- The HashMap behind the registry; its iteration order is no property of the map.
abbrev CertificateRegistry := AList fun _ : String => HandshakeData

def importCertificateDataList (certificateDataList : List HandshakeData) : CertificateRegistry :=
  certificateDataList.foldl (fun map handshakeData => map.insert handshakeData.aliasName handshakeData) ∅

def contains (sniString aliasName : String) : Bool := aliasName.toList <:+: sniString.toList

theorem importCertificateDataList_lookup {certificateDataList : List HandshakeData} {aliasName : String}
    {data : HandshakeData} (found : (importCertificateDataList certificateDataList).lookup aliasName = some data) :
    data ∈ certificateDataList ∧ aliasName = data.aliasName := by
  have filled : importCertificateDataList certificateDataList = PutAll.putAll HandshakeData.aliasName id ∅
      certificateDataList := rfl
  rw [filled] at found
  obtain ⟨item, member, derived, rfl⟩ := PutAll.lookup_putAll_empty found
  exact ⟨member, derived.symm⟩

theorem contains_aliasName {data : HandshakeData} (wellFormed : data.WellFormed) {name : String}
    (isFor : data.Matches name) : contains name data.aliasName = true := by
  apply decide_eq_true
  rw [HandshakeData.aliasName, String.toList_ofList]
  unfold HandshakeData.Matches at isFor
  cases wildcard : data.wildcard? with
  | some domain =>
    rw [wildcard] at isFor
    have text : data.hostname.toList = '*' :: '.' :: domain := by
      unfold HandshakeData.wildcard? at wildcard
      split at wildcard
      · next shape => exact Option.some.inj wildcard ▸ shape
      · contradiction
    rw [text, replaceFirst]
    exact (List.suffix_cons '.' domain).isInfix.trans isFor.isInfix
  | none =>
    rw [wildcard] at isFor
    rw [wellFormed.resolve_left (by simp [wildcard]), isFor]

-- `aliases` is the registry's key set in its iteration order.
def chooseServerAlias (aliases : List String) : List String → Option String
  | [] => none
  | sniString :: requestedNames =>
    match aliases.find? (contains sniString) with
    | some aliasName => some aliasName
    | none => chooseServerAlias aliases requestedNames

-- The first name that an alias occurs in decides; which alias is found there depends on the order.
theorem chooseServerAlias_eq (aliases requestedNames : List String) :
    chooseServerAlias aliases requestedNames =
      (requestedNames.find? fun name => aliases.any (contains name)).bind fun name =>
        aliases.find? (contains name) := by
  induction requestedNames with
  | nil => rfl
  | cons name rest ih =>
    cases found : aliases.find? (contains name) with
    | some aliasName =>
      have touched : aliases.any (contains name) = true :=
        List.any_eq_true.mpr ⟨aliasName, List.mem_of_find?_eq_some found, List.find?_some found⟩
      simp [chooseServerAlias, touched, found]
    | none =>
      have untouched : aliases.any (contains name) = false := by
        simpa [List.any_eq_false] using List.find?_eq_none.mp found
      simp [chooseServerAlias, untouched, found, ih]

section Choice

variable (registry : CertificateRegistry) (requestedNames : List String)

def decidingName : Option String :=
  requestedNames.find? fun name => registry.keys.any (contains name)

theorem chooseServerAlias_decides {aliases : List String} (order : aliases.Perm registry.keys) :
    chooseServerAlias aliases requestedNames =
      (decidingName registry requestedNames).bind fun name => aliases.find? (contains name) := by
  rw [chooseServerAlias_eq, decidingName]
  congr 2
  funext name
  rw [Bool.eq_iff_iff, List.any_eq_true, List.any_eq_true]
  simp only [order.mem_iff]

-- Every alias that occurs in the deciding name is returned for some order of the registry.
theorem chooseServerAlias_reaches {name aliasName : String} (decides : decidingName registry requestedNames = some name)
    (member : aliasName ∈ registry.keys) (occurs : contains name aliasName = true) :
    ∃ aliases, aliases.Perm registry.keys ∧ chooseServerAlias aliases requestedNames = some aliasName := by
  have order : (aliasName :: registry.keys.erase aliasName).Perm registry.keys :=
    (List.perm_cons_erase member).symm
  refine ⟨_, order, ?_⟩
  rw [chooseServerAlias_decides registry requestedNames order, decides]
  simp [List.find?_cons, occurs]

theorem chooseServerAlias_occurs {aliases : List String} (order : aliases.Perm registry.keys) {aliasName : String}
    (chosen : chooseServerAlias aliases requestedNames = some aliasName) :
    ∃ name, decidingName registry requestedNames = some name ∧ aliasName ∈ registry.keys ∧
      contains name aliasName = true := by
  rw [chooseServerAlias_decides registry requestedNames order] at chosen
  obtain ⟨name, decides, found⟩ := Option.bind_eq_some_iff.mp chosen
  exact ⟨name, decides, order.mem_iff.mp (List.mem_of_find?_eq_some found), List.find?_some found⟩

def Requested (data : HandshakeData) : Prop := ∃ name ∈ requestedNames, data.Matches name

def FirstIsServed : Prop :=
  ∃ first ∈ requestedNames.head?, ∃ aliasName data, registry.lookup aliasName = some data ∧ data.Matches first

end Choice

theorem decidingName_first {certificateDataList : List HandshakeData} {requestedNames : List String}
    (wellFormed : ∀ data ∈ certificateDataList, data.WellFormed) {first : String}
    (isFirst : first ∈ requestedNames.head?)
    (served : FirstIsServed (importCertificateDataList certificateDataList) requestedNames) :
    decidingName (importCertificateDataList certificateDataList) requestedNames = some first := by
  obtain ⟨_, isFirst', aliasName, data, found, isFor⟩ := served
  obtain rfl := Option.some.inj (isFirst.symm.trans isFirst')
  obtain ⟨rest, rfl⟩ := List.head?_eq_some_iff.mp isFirst
  obtain ⟨imported, rfl⟩ := importCertificateDataList_lookup found
  have occurs := contains_aliasName (wellFormed data imported) isFor
  have member : data.aliasName ∈ (importCertificateDataList certificateDataList).keys :=
    AList.lookup_isSome.mp (by simp [found])
  exact List.find?_cons_of_pos (List.any_eq_true.mpr ⟨_, member, occurs⟩)

-- An alias is returned for some order as soon as it occurs anywhere in the deciding name.
theorem chooseServerAlias_matches_iff (certificateDataList : List HandshakeData) (requestedNames : List String)
    (wellFormed : ∀ data ∈ certificateDataList, data.WellFormed) :
    let registry := importCertificateDataList certificateDataList
    (∀ aliases, aliases.Perm registry.keys → ∀ aliasName,
        chooseServerAlias aliases requestedNames = some aliasName →
          ∃ data, registry.lookup aliasName = some data ∧ Requested requestedNames data ∧
            (FirstIsServed registry requestedNames → ∀ first ∈ requestedNames.head?, data.Matches first)) ↔
      (FirstIsServed registry requestedNames → ∀ first ∈ requestedNames.head?, ∀ aliasName data,
          registry.lookup aliasName = some data → contains first aliasName = true → data.Matches first) ∧
        (¬FirstIsServed registry requestedNames → ∀ name, decidingName registry requestedNames = some name →
          ∀ aliasName data, registry.lookup aliasName = some data → contains name aliasName = true →
            Requested requestedNames data) := by
  intro registry
  constructor
  · intro serves
    have reached {name aliasName : String} {data : HandshakeData}
        (decides : decidingName registry requestedNames = some name)
        (found : registry.lookup aliasName = some data) (occurs : contains name aliasName = true) :
        Requested requestedNames data ∧
          (FirstIsServed registry requestedNames → ∀ first ∈ requestedNames.head?, data.Matches first) := by
      have member : aliasName ∈ registry.keys := AList.lookup_isSome.mp (by simp [found])
      obtain ⟨aliases, order, chosen⟩ := chooseServerAlias_reaches registry requestedNames decides member occurs
      obtain ⟨data', found', served⟩ := serves aliases order aliasName chosen
      obtain rfl : data = data' := Option.some.inj (found.symm.trans found')
      exact served
    constructor
    · intro served first isFirst aliasName data found occurs
      exact (reached (decidingName_first wellFormed isFirst served) found occurs).2 served first isFirst
    · intro _ name decides aliasName data found occurs
      exact (reached decides found occurs).1
  · intro ⟨whenServed, otherwise⟩ aliases order aliasName chosen
    obtain ⟨name, decides, member, occurs⟩ := chooseServerAlias_occurs registry requestedNames order chosen
    obtain ⟨data, found⟩ := Option.isSome_iff_exists.mp (AList.lookup_isSome.mpr member)
    refine ⟨data, found, ?_⟩
    by_cases served : FirstIsServed registry requestedNames
    · obtain ⟨first, isFirst, _⟩ := id served
      obtain rfl := Option.some.inj (decides.symm.trans (decidingName_first wellFormed isFirst served))
      have isFor := whenServed served name isFirst aliasName data found occurs
      refine ⟨⟨name, List.mem_of_mem_head? isFirst, isFor⟩, fun _ first' isFirst' => ?_⟩
      obtain rfl := Option.some.inj (isFirst.symm.trans isFirst')
      exact isFor
    · exact ⟨otherwise served name decides aliasName data found occurs, fun first => absurd first served⟩

theorem chooseServerAlias_matches_wildcard :
    let registry := importCertificateDataList [⟨"*.ds.example.com"⟩, ⟨"tr.other.example.com"⟩]
    ∀ aliases, aliases.Perm registry.keys → ∀ aliasName,
      chooseServerAlias aliases ["tr.ds.example.com"] = some aliasName → ∃ data,
        registry.lookup aliasName = some data ∧ Requested ["tr.ds.example.com"] data := by
  intro registry aliases order aliasName chosen
  have occursOnce : ∀ aliasName ∈ registry.keys, contains "tr.ds.example.com" aliasName = true →
      aliasName = "ds.example.com" := by decide +kernel
  have only (aliasName : String) (data : HandshakeData) (found : registry.lookup aliasName = some data)
      (occurs : contains "tr.ds.example.com" aliasName = true) : data.Matches "tr.ds.example.com" := by
    obtain rfl := occursOnce aliasName (AList.lookup_isSome.mp (by simp [found])) occurs
    obtain rfl : (⟨"*.ds.example.com"⟩ : HandshakeData) = data := Option.some.inj found
    decide +kernel
  have first : FirstIsServed registry ["tr.ds.example.com"] :=
    ⟨_, rfl, "ds.example.com", ⟨"*.ds.example.com"⟩, rfl, by decide +kernel⟩
  obtain ⟨data, found, requested, _⟩ := (chooseServerAlias_matches_iff
    [⟨"*.ds.example.com"⟩, ⟨"tr.other.example.com"⟩] ["tr.ds.example.com"] (by decide +kernel)).mpr
    ⟨fun _ name isFirst aliasName data found occurs => by
      obtain rfl := Option.some.inj isFirst
      exact only aliasName data found occurs, fun unserved => absurd first unserved⟩
    aliases order aliasName chosen
  exact ⟨data, found, requested⟩

-- The server name only ends in the certificate's hostname, not after a dot.
theorem chooseServerAlias_substring :
    let registry := importCertificateDataList [⟨"example.com"⟩]
    ∃ aliases, aliases.Perm registry.keys ∧
      chooseServerAlias aliases ["notexample.com"] = some "example.com" ∧
      ∀ data, registry.lookup "example.com" = some data → ¬Requested ["notexample.com"] data := by
  refine ⟨["example.com"], by decide +kernel, by decide +kernel, fun data found => ?_⟩
  obtain rfl : (⟨"example.com"⟩ : HandshakeData) = data := Option.some.inj found
  rintro ⟨name, member, isFor⟩
  obtain rfl := List.mem_singleton.mp member
  revert isFor
  decide +kernel

end TrafficControl.TrafficRouter.Secure
