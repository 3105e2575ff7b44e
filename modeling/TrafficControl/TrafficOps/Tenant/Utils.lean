import TrafficControl.Lib.Forest
import TrafficControl.TrafficOps.Tenant.Tenancy

set_option autoImplicit false

namespace Tenants

abbrev TenantsData := AList fun _ : Int => Tenant

/-- What `==` makes of a text that starts with digits. -/
def numeric (text : String) : Int :=
  ((text.toList.takeWhile Char.isDigit).foldl (fun value digit => 10 * value + (digit.toNat - '0'.toNat)) 0 : Nat)

-- An id as a request may spell it: `==` compares numbers, a hash is keyed by texts.
structure Scalar where
  number : Int
  key : Option Int

def Scalar.ofId (id : Int) : Scalar := ⟨id, some id⟩

def Scalar.ofText (text : String) : Scalar :=
  ⟨numeric text, if toString (numeric text) = text then some (numeric text) else none⟩

def maxHeirarchyLimit : Nat := 100

variable (tenantsData : TenantsData)

def parentOf (id : Int) : Option Int := (tenantsData.lookup id).bind Tenant.parentId

def childrenOf (id : Int) : List Int := tenantsData.keys.filter fun child => parentOf tenantsData child = some id

def getTenantById (tenantId : Scalar) : Option Tenant := tenantId.key.bind tenantsData.lookup

def known (tenantId : Scalar) : Option Int := tenantId.key.filter fun id => (tenantsData.lookup id).isSome

def isRootTenant (tenantId : Option Scalar) : Bool :=
  tenantId.any fun id => (id.key.bind (parentOf tenantsData)).isNone

def getTenantHeirarchyDepth (tenantId : Scalar) : Option Nat :=
  (known tenantsData tenantId).bind (Forest.depth (parentOf tenantsData) maxHeirarchyLimit)

/-- No list: the search goes on forever. -/
def getHierarchicTenantsList (treeRoot : Int) : Option (List Int) :=
  Forest.preorder (childrenOf tenantsData) tenantsData.keys.length [treeRoot]

def getTenantHeirarchyHeight (tenantId : Scalar) : Option (Option Nat) :=
  (known tenantsData tenantId).elim (some none) fun id =>
    (getHierarchicTenantsList tenantsData id).map fun tenantsList => some (Forest.heights (parentOf tenantsData) tenantsList id)

def isAnchestorOf (anchestorId descendantId : Scalar) : Option Bool :=
  (known tenantsData anchestorId).bind fun anchestorId =>
    (known tenantsData descendantId).bind fun descendantId =>
      Forest.climb (parentOf tenantsData) anchestorId maxHeirarchyLimit descendantId

/-- Nothing: a user of a tenant without a record makes the check die. -/
def isResourceAccessableToTenant (useTenancy : Bool) (resourceTenant : Option Scalar) (userTenant : Option Int) : Option Bool :=
  if useTenancy then
    match userTenant with
    | none => some resourceTenant.isNone
    | some userTenant => (tenantsData.lookup userTenant).map fun record =>
      record.active && resourceTenant.all fun resourceTenant =>
        userTenant = resourceTenant.number ||
          (isAnchestorOf tenantsData (.ofId userTenant) resourceTenant).getD
            -- on an error only the root tenant gets through
            (isRootTenant tenantsData (some (.ofId userTenant)))
  else some true

variable {tenantsData}

@[simp] theorem number_ofId (id : Int) : (Scalar.ofId id).number = id := rfl

theorem mem_childrenOf {id child : Int} : child ∈ childrenOf tenantsData id ↔ parentOf tenantsData child = some id := by
  simp only [childrenOf, List.mem_filter, decide_eq_true_eq, and_iff_right_iff_imp]
  intro up
  obtain ⟨tenant, found, -⟩ := Option.bind_eq_some_iff.mp up
  exact AList.mem_keys.mpr (AList.lookup_isSome.mp (by rw [found]; rfl))

theorem known_ofId {id : Int} (member : id ∈ tenantsData) : known tenantsData (.ofId id) = some id := by
  simp [known, Scalar.ofId, AList.lookup_isSome, member]

theorem known_eq_some_iff {tenantId : Scalar} {id : Int} :
    known tenantsData tenantId = some id ↔ tenantId.key = some id ∧ id ∈ tenantsData := by
  simp [known, Option.filter_eq_some_iff, AList.lookup_isSome]

theorem depth_ofId {id : Int} (member : id ∈ tenantsData) : getTenantHeirarchyDepth tenantsData (.ofId id) =
    Forest.depth (parentOf tenantsData) maxHeirarchyLimit id := by
  rw [getTenantHeirarchyDepth, known_ofId member, Option.bind_some]

theorem isAnchestorOf_ofId {anchestor descendant : Int} (above : anchestor ∈ tenantsData) (below : descendant ∈ tenantsData) :
    isAnchestorOf tenantsData (.ofId anchestor) (.ofId descendant) =
      Forest.climb (parentOf tenantsData) anchestor maxHeirarchyLimit descendant := by
  rw [isAnchestorOf, known_ofId above, known_ofId below, Option.bind_some, Option.bind_some]

theorem isResourceAccessableToTenant_user {resource : Option Scalar} {userTenant : Int}
    (accessable : isResourceAccessableToTenant tenantsData true resource (some userTenant) = some true) :
    userTenant ∈ tenantsData ∧ ∀ resourceTenant, resource = some resourceTenant → userTenant = resourceTenant.number ∨
      isAnchestorOf tenantsData (.ofId userTenant) resourceTenant = some true ∨ parentOf tenantsData userTenant = none := by
  obtain ⟨record, found, decided⟩ := Option.map_eq_some_iff.mp accessable
  refine ⟨AList.lookup_isSome.mp (by rw [found]; rfl), ?_⟩
  rintro resourceTenant rfl
  simp only [Option.all_some, Bool.and_eq_true, Bool.or_eq_true, decide_eq_true_eq] at decided
  refine decided.2.imp_right fun walked => ?_
  cases answer : isAnchestorOf tenantsData (.ofId userTenant) resourceTenant with
  | none =>
    rw [answer, Option.getD_none] at walked
    exact .inr (Option.isNone_iff_eq_none.mp walked)
  | some isAnchestor =>
    rw [answer, Option.getD_some] at walked
    exact .inl (congrArg some walked)

end Tenants
