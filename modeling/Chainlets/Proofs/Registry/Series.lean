import Chainlets.Proofs.Registry.Callbacks
import Chainlets.Proofs.Version.Series

/-!
# The series of chainlets

A move never takes a chainlet out of its series, and leaves its version alone while an upgrade is
pending; the pending upgrade stays then, too. So from the moment at which an upgrade is scheduled
until it is settled, its plan name can be computed again and again. Only a confirmation completes
it, and takes the chainlet to the next series.

## Main definitions

* `Chainlet.Steady`, `Registry.Steady` — what moves keep of a record, and of all records.
* `Chainlet.StaysPut`, `Chainlet.Completes` — the two things that a step of the handshake may do.
* `Chainlet.Precedes` — a record in a series that is not above that of another record.

## Main results

* `Registry.Moves.steady` — **moves keep every chainlet in its series.**
* `Chainlet.Sound.staysPut_or_completes` — **news take it to the next series, or keep it in its
  own.**
-/

namespace Chainlets

open Handshake

variable {reg reg' reg'' : Registry} {c c' c'' : Chainlet}

/-! ### Series of records -/

/-- A chainlet in order runs a version that belongs to a series. -/
theorem Registry.WellFormed.exists_series (h : reg.WellFormed) {stack version : String}
    (hregistered : Catalog.Registers reg.catalog stack version) :
    ∃ s : Series, s.Has version := by
  obtain ⟨p, hp⟩ := hregistered.parses h.catalog
  exact ⟨p.series, p, hp, rfl⟩

/-- A chainlet stays in its series. While an upgrade is pending on it, the upgrade stays pending,
and the chainlet on its version. -/
structure Chainlet.Steady (c c' : Chainlet) : Prop where
  series : ∀ s : Series, s.Has c.version → s.Has c'.version
  frozen : ∀ upgrade, c.upgrade? = some upgrade →
    c'.upgrade? = some upgrade ∧ c'.version = c.version

namespace Chainlet.Steady

theorem refl (c : Chainlet) : c.Steady c := ⟨fun _ h => h, fun _ h => ⟨h, rfl⟩⟩

theorem trans (h : c.Steady c') (h' : c'.Steady c'') : c.Steady c'' where
  series s hs := h'.series s (h.series s hs)
  frozen upgrade hpending := by
    obtain ⟨hpending', hversion⟩ := h.frozen upgrade hpending
    obtain ⟨hpending'', hversion'⟩ := h'.frozen upgrade hpending'
    exact ⟨hpending'', hversion'.trans hversion⟩

/-- A record with the same version and the same pending upgrade. -/
theorem of_eq (hversion : c'.version = c.version) (hupgrade : c'.upgrade? = c.upgrade?) :
    c.Steady c' where
  series s hs := by rwa [hversion]
  frozen upgrade hpending := ⟨hupgrade.trans hpending, hversion⟩

end Chainlet.Steady

theorem Chainlet.Turn.steady {catalog : Catalog} (h : c.Turn catalog c') : c.Steady c' := by
  cases h with
  | status status => exact .of_eq rfl rfl
  | @upgrade version idle registered compatible =>
    obtain ⟨s, hold, hnew⟩ := Upgrade.kind_eq_compatible_iff.1 compatible
    refine ⟨fun t ht => ?_, fun upgrade hpending => ?_⟩
    · rwa [ht.unique hold]
    · rw [idle] at hpending
      cases hpending
  | schedule idle consumer registered breaking =>
    refine ⟨fun s hs => hs, fun upgrade hpending => ?_⟩
    rw [idle] at hpending
    cases hpending

/-! ### Moves -/

/-- Every chainlet is still there, and steady. -/
def Registry.Steady (reg reg' : Registry) : Prop :=
  ∀ chainId c, reg.chainlets.get? chainId = some c →
    ∃ c', reg'.chainlets.get? chainId = some c' ∧ c.Steady c'

namespace Registry

theorem Steady.of_eq (h : reg'.chainlets = reg.chainlets) : reg.Steady reg' :=
  fun _ c hc => ⟨c, by rw [h, hc], .refl c⟩

theorem Steady.trans (h : reg.Steady reg') (h' : reg'.Steady reg'') : reg.Steady reg'' := by
  intro chainId c hc
  obtain ⟨c', hc', hsteady⟩ := h chainId c hc
  obtain ⟨c'', hc'', hsteady'⟩ := h' chainId c' hc'
  exact ⟨c'', hc'', hsteady.trans hsteady'⟩

/-- A record is written over one that it is steady to, or where none was. -/
theorem Steady.of_insert {d : Chainlet} (h : reg'.chainlets = reg.chainlets.insert d.chainId d)
    (hold : ∀ c, reg.chainlets.get? d.chainId = some c → c.Steady d) : reg.Steady reg' := by
  intro chainId c hc
  rw [h, OrderedMap.get?_insert]
  split
  next heq =>
    rw [heq] at hc
    exact ⟨d, rfl, hold c hc⟩
  next => exact ⟨c, hc, .refl c⟩

theorem Move.steady (h : reg.Move reg') : reg.Steady reg' := by
  cases h with
  | create free wellFormed => exact .of_eq rfl
  | extend held parses apart => exact .of_eq rfl
  | disable version held => exact .of_eq rfl
  | @launch c params given room free sound =>
    have hinsert : (((reg.await? c.chainId c.consumer?).putChainlet c).withCount
        (reg.count + 1)).chainlets = reg.chainlets.insert c.chainId c := by
      rw [await?_eq]
      rfl
    refine .of_insert hinsert fun d hd => ?_
    rw [free] at hd
    cases hd
  | @join c consumer held alone =>
    refine .of_insert (d := c.join consumer) rfl fun d hd => ?_
    obtain rfl : c = d := Option.some.inj (held.symm.trans hd)
    exact .of_eq rfl rfl
  | @turn c c' held turn =>
    refine .of_insert rfl fun d hd => ?_
    rw [turn.chainId_eq] at hd
    obtain rfl : c = d := Option.some.inj (held.symm.trans hd)
    exact turn.steady
  | init chainId => exact .of_eq rfl

/-- **Moves keep every chainlet in its series**, and freeze its version while an upgrade is
pending. -/
theorem Moves.steady (h : reg.Moves reg') : reg.Steady reg' := by
  induction h with
  | refl => exact .of_eq rfl
  | tail _ hmove ih => exact ih.trans hmove.steady

end Registry

/-! ### Steps of the handshake -/

namespace Chainlet

/-- A chainlet is in the series that it was in, and if an upgrade was pending on the version that it
was on. -/
def StaysPut (c c' : Chainlet) : Prop :=
  (∃ s : Series, s.Has c.version ∧ s.Has c'.version) ∧
    (c.upgrade?.isSome = true → c'.version = c.version)

/-- A chainlet was moved to the target version of its pending upgrade, which is in the next series,
and nothing is pending on it any more. -/
def Completes (c c' : Chainlet) : Prop :=
  ∃ upgrade, c.upgrade? = some upgrade ∧
    c' = { c with version := upgrade.targetVersion, upgrade? := none } ∧
    ∃ s t : Series, s.Has c.version ∧ t.Has c'.version ∧ t.Follows s

theorem Steady.staysPut (h : c.Steady c') (hseries : ∃ s : Series, s.Has c.version) :
    c.StaysPut c' := by
  obtain ⟨s, hs⟩ := hseries
  refine ⟨⟨s, hs, h.series s hs⟩, fun hsome => ?_⟩
  obtain ⟨upgrade, hpending⟩ := Option.isSome_iff_exists.1 hsome
  exact (h.frozen upgrade hpending).2

theorem StaysPut.of_version_eq (h : c'.version = c.version)
    (hseries : ∃ s : Series, s.Has c.version) : c.StaysPut c' := by
  obtain ⟨s, hs⟩ := hseries
  exact ⟨⟨s, hs, by rwa [h]⟩, fun _ => h⟩

/-- **News take a chainlet to the next series, or keep it in its own.** The former is done by a
confirmation alone. -/
theorem Sound.staysPut_or_completes {catalog : Catalog} (h : c.Sound catalog)
    (hseries : ∃ s : Series, s.Has c.version) {news : News} {plan : String} {t : Transition}
    (ht : news.transition c.upgrade? c.version plan = .ok t) :
    c.StaysPut (t.apply c) ∨ news = .confirmed ∧ c.Completes (t.apply c) := by
  rcases News.transition_cases ht with ⟨upgrade, hpending, -, rfl⟩ | ⟨⟨reason, rfl⟩, -⟩
  · have hstays (c' : Chainlet) (hversion : c'.version = c.version) : c.StaysPut c' :=
      .of_version_eq hversion hseries
    cases news with
    | confirmed =>
      obtain ⟨-, -, hbreaking⟩ := h.upgrade upgrade hpending
      exact .inr ⟨rfl, upgrade, hpending, rfl, Upgrade.kind_eq_breaking_iff.1 hbreaking⟩
    | createAnswered success => cases success <;> exact .inl (hstays _ rfl)
    | createExpired => exact .inl (hstays _ rfl)
    | cancelAnswered success => cases success <;> exact .inl (hstays _ rfl)
    | cancelExpired => exact .inl (hstays _ rfl)
  · exact .inl (.of_version_eq rfl hseries)

/-! ### The order of records -/

/-- A record in a series that is not above that of another record. -/
def Precedes (c c' : Chainlet) : Prop :=
  ∀ s : Series, s.Has c.version → ∃ t : Series, t.Has c'.version ∧ s.rank ≤ t.rank

theorem Precedes.refl (c : Chainlet) : c.Precedes c := fun s hs => ⟨s, hs, Nat.le_refl _⟩

theorem Precedes.trans (h : c.Precedes c') (h' : c'.Precedes c'') : c.Precedes c'' := by
  intro s hs
  obtain ⟨t, ht, hle⟩ := h s hs
  obtain ⟨u, hu, hle'⟩ := h' t ht
  exact ⟨u, hu, Nat.le_trans hle hle'⟩

theorem StaysPut.precedes (h : c.StaysPut c') : c.Precedes c' := by
  obtain ⟨⟨s, hs, hs'⟩, -⟩ := h
  intro t ht
  rw [ht.unique hs]
  exact ⟨s, hs', Nat.le_refl _⟩

theorem Completes.precedes (h : c.Completes c') : c.Precedes c' := by
  obtain ⟨upgrade, -, -, s, t, hs, ht, hfollows⟩ := h
  intro u hu
  rw [hu.unique hs]
  exact ⟨t, ht, Nat.le_of_lt hfollows.rank_lt⟩

end Chainlet

end Chainlets
