/-
This file models what the daemon's PKI uses of `crypto/x509` and `crypto/tls`:
certificates that name their key and the key that signed them, the name
constraints of a CA and which names they permit, and when a leaf verifies under
a CA. The names that a daemon answers to can all be constraints, and a list of
such names permits itself.
-/

import Multimux.Clock
import Multimux.Identity

namespace Multimux

/-! ### Domain names -/

/-- A label of printable ASCII characters, at least one. -/
def isDomainLabel (label : List Char) : Bool :=
  !label.isEmpty && label.all fun letter => 33 ≤ letter.toNat ∧ letter.toNat ≤ 126

/-- The labels of a domain, last one first; none where `crypto/x509` refuses the domain. -/
def domainLabels (domain : List Char) : Option (List (List Char)) :=
  if domain = [] then some []
  else
    let labels := domain.splitOn '.'
    if labels.all isDomainLabel then some labels.reverse else none

/-- A constraint without the dot that asks for a subdomain. -/
def constraintDomain (constraint : List Char) : List Char :=
  if constraint.head? = some '.' then constraint.tail else constraint

/-- `matchDomainConstraint`; a domain or a constraint that does not parse matches nothing. -/
def matchDomainConstraint (domain constraint : List Char) : Bool :=
  if constraint = [] then true
  else
    match domainLabels domain, domainLabels (constraintDomain constraint) with
    | some labels, some constrained =>
      let mustHaveSubdomains : Bool := constraint.head? = some '.'
      ¬ (mustHaveSubdomains ∧ labels.length = constrained.length) ∧
        constrained.map (·.map Char.toLower) <+: labels.map (·.map Char.toLower)
    | _, _ => false

/-- `CreateCertificate` can encode the constraint and `ParseCertificate` reads it back. -/
def constraintParses (constraint : List Char) : Bool :=
  constraint.all (·.toNat < 128) ∧ (domainLabels (constraintDomain constraint)).isSome

/-! ### Certificates -/

/-- A certificate: its key, the key that signed it, the names it permits or is for, and its
lifetime. A key pair goes by its number. -/
structure Certificate where
  key : Nat
  signer : Nat
  names : List (List Char)
  notBefore : Int
  notAfter : Int
  deriving DecidableEq

/-- The instant as a certificate carries it, in whole seconds. -/
def certificateTime (instant : Int) : Int := instant / second * second

/-- The names satisfy the constraints; no constraint permits every name. -/
def permitsNames (constraints names : List (List Char)) : Bool :=
  constraints.isEmpty ∨ names.all fun name => constraints.any (matchDomainConstraint name)

/-- The leaf is signed with the CA's key and its names are permitted. -/
def Certificate.ChainsTo (leaf ca : Certificate) : Prop :=
  leaf.signer = ca.key ∧ permitsNames ca.names leaf.names = true

instance (leaf ca : Certificate) : Decidable (leaf.ChainsTo ca) :=
  inferInstanceAs (Decidable (_ ∧ _))

/-- The instant lies within the validity. -/
def Certificate.validAt (cert : Certificate) (now : Int) : Bool :=
  cert.notBefore ≤ now ∧ now ≤ cert.notAfter

/-- `Verify` with the CA as the only root. -/
def Certificate.verify (leaf ca : Certificate) (now : Int) : Bool :=
  leaf.ChainsTo ca ∧ leaf.validAt now ∧ ca.validAt now

/-! ### Names that permit themselves -/

/-- A name that can stand in a certificate. -/
def DomainName (name : List Char) : Prop := (name.splitOn '.').all isDomainLabel = true

instance (name : List Char) : Decidable (DomainName name) :=
  inferInstanceAs (Decidable (_ = true))

theorem isDomainLabel_iff {label : List Char} :
    isDomainLabel label = true ↔
      label ≠ [] ∧ ∀ letter ∈ label, 33 ≤ letter.toNat ∧ letter.toNat ≤ 126 := by
  simp [isDomainLabel]

theorem domainName_iff {name : List Char} :
    DomainName name ↔ ∀ label ∈ name.splitOn '.',
      label ≠ [] ∧ ∀ letter ∈ label, 33 ≤ letter.toNat ∧ letter.toNat ≤ 126 := by
  rw [DomainName, List.all_eq_true]
  exact forall₂_congr fun label _ => isDomainLabel_iff

theorem DomainName.ne_nil {name : List Char} (domain : DomainName name) : name ≠ [] := by
  rintro rfl
  exact (domainName_iff.mp domain [] (List.mem_singleton_self _)).1 rfl

theorem DomainName.domainLabels_eq {name : List Char} (domain : DomainName name) :
    domainLabels name = some (name.splitOn '.').reverse := by
  rw [domainLabels, if_neg domain.ne_nil]
  exact if_pos domain

/-- No label of a domain name is empty, so it does not begin with a dot. -/
theorem DomainName.constraintDomain_eq {name : List Char} (domain : DomainName name) :
    constraintDomain name = name := by
  refine if_neg fun dotted => ?_
  obtain ⟨rest, rfl⟩ := List.head?_eq_some_iff.mp dotted
  have split : ('.' :: rest).splitOn '.' = [] :: rest.splitOn '.' :=
    List.splitOn_append_cons_self [] rest
  exact (domainName_iff.mp domain [] (split ▸ List.mem_cons_self)).1 rfl

/-- The characters of a domain name are ASCII. -/
theorem DomainName.ascii {name : List Char} (domain : DomainName name) :
    ∀ letter ∈ name, letter.toNat < 128 := by
  intro letter member
  have joined : ['.'].intercalate (name.splitOn '.') = name := List.intercalate_splitOn '.'
  rw [← joined] at member
  rcases mem_intercalate_dot member with rfl | ⟨label, listed, inside⟩
  · decide
  · have printable := (domainName_iff.mp domain label listed).2 letter inside
    omega

theorem DomainName.constraintParses {name : List Char} (domain : DomainName name) :
    constraintParses name = true := by
  refine decide_eq_true ⟨List.all_eq_true.mpr fun letter member => ?_, ?_⟩
  · exact decide_eq_true (domain.ascii letter member)
  · rw [domain.constraintDomain_eq, domain.domainLabels_eq]
    rfl

theorem DomainName.matchDomainConstraint_self {name : List Char} (domain : DomainName name) :
    matchDomainConstraint name name = true := by
  have undotted : ¬ name.head? = some '.' := by
    intro dotted
    have same := domain.constraintDomain_eq
    rw [constraintDomain, if_pos dotted] at same
    have shorter := congrArg List.length same
    rw [List.length_tail] at shorter
    have some := List.length_pos_iff.mpr domain.ne_nil
    omega
  simp [matchDomainConstraint, domain.ne_nil, domain.constraintDomain_eq, domain.domainLabels_eq,
    undotted]

/-- Domain names permit themselves. -/
theorem permitsNames_self {names : List (List Char)}
    (domains : ∀ name ∈ names, DomainName name) : permitsNames names names = true := by
  refine decide_eq_true (.inr (List.all_eq_true.mpr fun name member => ?_))
  exact List.any_eq_true.mpr ⟨name, member, (domains name member).matchDomainConstraint_self⟩

/-! ### The names of the daemon -/

theorem ValidName.domainName {tables : TextTables} {name : List Char}
    (valid : ValidName tables name) : DomainName name := by
  refine domainName_iff.mpr fun label member => ?_
  obtain ⟨nonempty, runes⟩ := valid.labels label member
  refine ⟨nonempty, fun letter inside => ?_⟩
  have code := toNat_nameRune (.inr (runes letter inside))
  omega

theorem ValidName.domainName_local {tables : TextTables} {name : List Char}
    (valid : ValidName tables name) : DomainName (name ++ dotLocal) := by
  have split : (name ++ dotLocal).splitOn '.' = name.splitOn '.' ++ ["local".toList] :=
    List.splitOn_append_cons_self name "local".toList
  refine domainName_iff.mpr fun label member => ?_
  rw [split] at member
  rcases List.mem_append.mp member with front | last
  · exact domainName_iff.mp valid.domainName label front
  · rw [List.mem_singleton.mp last]
    exact isDomainLabel_iff.mp rfl

/-- The names that a start computes are domain names, and there is one. -/
theorem hostnames_domains {tables : TextTables} {calls : HostnamesCalls}
    {store after : IdentityStore} {names : List (List Char)}
    (computed : hostnames tables calls store = (.ok names, after)) :
    names ≠ [] ∧ ∀ name ∈ names, DomainName name := by
  obtain ⟨host, extraSANs, valid, rfl⟩ := hostnames_ok computed
  refine ⟨by simp [answeredNames], fun name member => ?_⟩
  rcases List.mem_append.mp member with own | extra
  · rcases List.mem_append.mp own with first | second
    · rw [List.mem_singleton.mp first]
      exact valid.domainName
    · split at second
      · cases second
      · rw [List.mem_singleton.mp second]
        exact valid.domainName_local
  · obtain ⟨-, right⟩ := List.mem_filter.mp ((List.mergeSort_perm _ _).mem_iff.mp extra)
    exact ValidName.domainName (of_decide_eq_true right)

end Multimux
