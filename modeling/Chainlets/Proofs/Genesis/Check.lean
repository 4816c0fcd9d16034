import Chainlets.Genesis.Import
import Chainlets.Proofs.VersionTree.Rebuild

/-!
# What the check of a genesis state establishes

The check goes through stacks and chainlets one by one and carries along what it has seen. What it
establishes is stated here without the order: the stacks and chainlets are told apart by name, each
of them is in order, and there are not more chainlets than the parameters allow.

The converse holds as well: a genesis state of which all this is true passes the check.

## Main definitions

* `Genesis.Checked` — what a genesis state that passes the check is like.

## Main results

* `Genesis.checkStacks_ok`, `Genesis.checkChainlets_ok` — what each part establishes.
* `Genesis.check_ok` — what the whole check establishes.
* `Genesis.check_eq_ok_iff` — **the check establishes no less, and refuses nothing else.**
-/

namespace Chainlets

theorem requireVersion_ok {text : String} {u : Unit} (h : requireVersion text = .ok u) :
    ∃ p, Version.parse text = .ok p := by
  rw [requireVersion.eq_def] at h
  split at h
  next p hp => exact ⟨p, hp⟩
  next => cases h

theorem requireChainId_ok {id : String} {u : Unit} (h : requireChainId id = .ok u) :
    ChainId.isValid id = true := by
  rw [requireChainId.eq_def] at h
  split at h
  next hvalid => exact hvalid
  next => cases h

namespace Genesis

theorem checkVersions_ok {stack : String} {l : List StackVersion} :
    ∀ {earlier : List StackVersion} {u : Unit}, checkVersions stack earlier l = .ok u →
      (∀ v ∈ l, ∃ p, Version.parse v.version = .ok p) ∧
        (l.Pairwise fun v w => ¬ v.CollidesWith w) ∧
          ∀ w ∈ earlier, ∀ v ∈ l, ¬ w.CollidesWith v := by
  induction l with
  | nil => exact fun _ => ⟨by simp, .nil, by simp⟩
  | cons v l ih =>
    intro earlier u h
    obtain ⟨_, hversion, h⟩ := Except.bind_eq_ok.1 h
    obtain ⟨hearlier, h⟩ := Except.guarded_eq_ok.1 h
    obtain ⟨hparses, hapart, hseen⟩ := ih h
    have hfree : ∀ w ∈ earlier, ¬ w.CollidesWith v := by simpa using hearlier
    refine ⟨?_, ?_, ?_⟩
    · intro w hw
      rcases List.mem_cons.1 hw with rfl | hw
      · exact requireVersion_ok hversion
      · exact hparses w hw
    · exact hapart.cons fun w hw => hseen v List.mem_cons_self w hw
    · intro w hw x hx
      rcases List.mem_cons.1 hx with rfl | hx
      · exact hfree w hw
      · exact hseen w (List.mem_cons_of_mem _ hw) x hx

/-- Stacks that pass are well-formed and have names of their own. -/
theorem checkStacks_ok {l : List Stack} : ∀ {seen : List String} {u : Unit},
    checkStacks seen l = .ok u →
      (∀ stack ∈ l, stack.WellFormed) ∧ (l.Pairwise fun a b => a.name ≠ b.name) ∧
        ∀ stack ∈ l, stack.name ∉ seen := by
  induction l with
  | nil => exact fun _ => ⟨by simp, .nil, by simp⟩
  | cons stack l ih =>
    intro seen u h
    obtain ⟨hnew, h⟩ := Except.guarded_eq_ok.1 h
    obtain ⟨_, hversions, h⟩ := Except.bind_eq_ok.1 h
    obtain ⟨hparses, hapart, -⟩ := checkVersions_ok hversions
    obtain ⟨hwell, hnames, hseen⟩ := ih h
    refine ⟨?_, ?_, ?_⟩
    · intro other hother
      rcases List.mem_cons.1 hother with rfl | hother
      · exact ⟨fun hv => hparses _ hv, hapart⟩
      · exact hwell other hother
    · refine hnames.cons fun other hother heq => hseen other hother ?_
      rw [← heq]
      exact List.mem_cons_self
    · intro other hother
      rcases List.mem_cons.1 hother with rfl | hother
      · exact hnew
      · exact fun hmem => hseen other hother (List.mem_cons_of_mem _ hmem)

/-- Chainlets that pass have valid chain ids of their own, and run versions that are there. -/
theorem checkChainlets_ok {catalog : List Stack} {l : List Chainlet} :
    ∀ {seen : List String} {u : Unit}, checkChainlets catalog seen l = .ok u →
      (∀ c ∈ l, ChainId.isValid c.chainId = true ∧ runsKnownVersion catalog c = true) ∧
        (l.Pairwise fun a b => a.chainId ≠ b.chainId) ∧ ∀ c ∈ l, c.chainId ∉ seen := by
  induction l with
  | nil => exact fun _ => ⟨by simp, .nil, by simp⟩
  | cons c l ih =>
    intro seen u h
    obtain ⟨_, hid, h⟩ := Except.bind_eq_ok.1 h
    obtain ⟨hnew, h⟩ := Except.guarded_eq_ok.1 h
    obtain ⟨hknown, h⟩ := Except.guarded_eq_ok.1 h
    obtain ⟨hall, hids, hseen⟩ := ih h
    refine ⟨?_, ?_, ?_⟩
    · intro other hother
      rcases List.mem_cons.1 hother with rfl | hother
      · exact ⟨requireChainId_ok hid, by simpa using hknown⟩
      · exact hall other hother
    · refine hids.cons fun other hother heq => hseen other hother ?_
      rw [← heq]
      exact List.mem_cons_self
    · intro other hother
      rcases List.mem_cons.1 hother with rfl | hother
      · exact hnew
      · exact fun hmem => hseen other hother (List.mem_cons_of_mem _ hmem)

/-- **What a genesis state that passes the check is like.** -/
structure Checked (genesis : Genesis) : Prop where
  catalog : ∀ stack ∈ genesis.catalog, stack.WellFormed
  names : genesis.catalog.Pairwise fun a b => a.name ≠ b.name
  count : genesis.chainlets.length ≤ genesis.params.maxChainlets.toNat
  chainlets : ∀ c ∈ genesis.chainlets,
    ChainId.isValid c.chainId = true ∧ runsKnownVersion genesis.catalog c = true
  chainIds : genesis.chainlets.Pairwise fun a b => a.chainId ≠ b.chainId

theorem check_ok {genesis : Genesis} {u : Unit} (h : genesis.check = .ok u) : genesis.Checked := by
  obtain ⟨_, hstacks, h⟩ := Except.bind_eq_ok.1 h
  obtain ⟨hcount, h⟩ := Except.guarded_eq_ok.1 h
  obtain ⟨hwell, hnames, -⟩ := checkStacks_ok hstacks
  obtain ⟨hall, hids, -⟩ := checkChainlets_ok h
  exact ⟨hwell, hnames, Nat.le_of_not_lt hcount, hall, hids⟩

/-! ### What passes the check -/

theorem requireVersion_eq_ok {text : String} {p : Version} (h : Version.parse text = .ok p) :
    requireVersion text = .ok () := by
  rw [requireVersion.eq_def, h]

theorem requireChainId_eq_ok {id : String} (h : ChainId.isValid id = true) :
    requireChainId id = .ok () := by
  rw [requireChainId.eq_def, if_pos h]

theorem checkVersions_eq_ok {stack : String} {l : List StackVersion} :
    ∀ {earlier : List StackVersion}, (∀ v ∈ l, ∃ p, Version.parse v.version = .ok p) →
      (l.Pairwise fun v w => ¬ v.CollidesWith w) →
        (∀ w ∈ earlier, ∀ v ∈ l, ¬ w.CollidesWith v) →
          checkVersions stack earlier l = .ok () := by
  induction l with
  | nil => exact fun _ _ _ => rfl
  | cons v l ih =>
    intro earlier hparses hapart hseen
    obtain ⟨p, hp⟩ := hparses v List.mem_cons_self
    have hfree : ¬ (earlier.any fun w => w.CollidesWith v) = true := by
      simpa using fun w hw => hseen w hw v List.mem_cons_self
    have hrest : checkVersions stack (v :: earlier) l = .ok () := by
      refine ih (fun w hw => hparses w (List.mem_cons_of_mem _ hw)) hapart.of_cons ?_
      intro w hw x hx
      rcases List.mem_cons.1 hw with rfl | hw
      · exact List.rel_of_pairwise_cons hapart hx
      · exact hseen w hw x (List.mem_cons_of_mem _ hx)
    exact Except.bind_eq_ok.2 ⟨(), requireVersion_eq_ok hp,
      Except.guarded_eq_ok.2 ⟨hfree, hrest⟩⟩

theorem checkStacks_eq_ok {l : List Stack} :
    ∀ {seen : List String}, (∀ stack ∈ l, stack.WellFormed) →
      (l.Pairwise fun a b => a.name ≠ b.name) → (∀ stack ∈ l, stack.name ∉ seen) →
        checkStacks seen l = .ok () := by
  induction l with
  | nil => exact fun _ _ _ => rfl
  | cons stack l ih =>
    intro seen hwell hnames hseen
    have hstack := hwell stack List.mem_cons_self
    have hversions : checkVersions stack.name [] stack.versions = .ok () :=
      checkVersions_eq_ok (fun _ hv => hstack.parses hv) hstack.apart nofun
    have hrest : checkStacks (stack.name :: seen) l = .ok () := by
      refine ih (fun other hother => hwell other (List.mem_cons_of_mem _ hother)) hnames.of_cons ?_
      intro other hother hmem
      rcases List.mem_cons.1 hmem with heq | hmem
      · exact List.rel_of_pairwise_cons hnames hother heq.symm
      · exact hseen other (List.mem_cons_of_mem _ hother) hmem
    exact Except.guarded_eq_ok.2 ⟨hseen stack List.mem_cons_self,
      Except.bind_eq_ok.2 ⟨(), hversions, hrest⟩⟩

theorem checkChainlets_eq_ok {catalog : List Stack} {l : List Chainlet} :
    ∀ {seen : List String},
      (∀ c ∈ l, ChainId.isValid c.chainId = true ∧ runsKnownVersion catalog c = true) →
        (l.Pairwise fun a b => a.chainId ≠ b.chainId) → (∀ c ∈ l, c.chainId ∉ seen) →
          checkChainlets catalog seen l = .ok () := by
  induction l with
  | nil => exact fun _ _ _ => rfl
  | cons c l ih =>
    intro seen hall hids hseen
    obtain ⟨hvalid, hknown⟩ := hall c List.mem_cons_self
    have hrest : checkChainlets catalog (c.chainId :: seen) l = .ok () := by
      refine ih (fun other hother => hall other (List.mem_cons_of_mem _ hother)) hids.of_cons ?_
      intro other hother hmem
      rcases List.mem_cons.1 hmem with heq | hmem
      · exact List.rel_of_pairwise_cons hids hother heq.symm
      · exact hseen other (List.mem_cons_of_mem _ hother) hmem
    exact Except.bind_eq_ok.2 ⟨(), requireChainId_eq_ok hvalid, Except.guarded_eq_ok.2
      ⟨hseen c List.mem_cons_self, Except.guarded_eq_ok.2 ⟨by simp [hknown], hrest⟩⟩⟩

/-- **The check of a genesis state passes exactly the genesis states that are in order.** -/
theorem check_eq_ok_iff {genesis : Genesis} : genesis.check = .ok () ↔ genesis.Checked := by
  refine ⟨check_ok, fun h => ?_⟩
  have hstacks : checkStacks [] genesis.catalog = .ok () :=
    checkStacks_eq_ok h.catalog h.names fun _ _ => List.not_mem_nil
  have hchainlets : checkChainlets genesis.catalog [] genesis.chainlets = .ok () :=
    checkChainlets_eq_ok h.chainlets h.chainIds fun _ _ => List.not_mem_nil
  exact Except.bind_eq_ok.2 ⟨(), hstacks, Except.guarded_eq_ok.2
    ⟨Nat.not_lt.2 h.count, hchainlets⟩⟩

end Genesis

end Chainlets
