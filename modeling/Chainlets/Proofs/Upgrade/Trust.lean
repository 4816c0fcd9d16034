import Chainlets.Proofs.Registry.Callbacks

/-!
# Nobody else can speak for a chainlet

Packets are bytes that anyone may send over a channel that anyone may open. A callback that changes
anything, an event included, has named a chainlet that is there, and has come over a channel that is
trusted to carry news of it; and then no other record than that chainlet's is touched. In every
other case the callback fails, and the context is what it was.

This holds in any state, and whatever the parent chain answers. Only that a chainlet is stored under
its own chain id is a property of well-formed registries.

## Main definitions

* `Callback.Trusted` — a callback names a chainlet, over a channel that is trusted.

## Main results

* `Callback.perform_trusted` — **a callback that is not trusted changes nothing.**
-/

namespace Chainlets

variable {ω : Type}

/-- The packet of a callback names a chainlet, and the module's end of its channel is trusted to
carry news of that chainlet. -/
structure Callback.Trusted (cb : Callback) (parent : Parent ω) (world : ω) (o : Overlay)
    (chainId : String) (c : Chainlet) : Prop where
  /-- The packet can be read, and the chainlet that it names is there. -/
  named : ∃ data, PacketData.decode cb.packet.data = .ok data ∧ data.chainId = chainId ∧
    Readable.chainlet? o chainId = .ok (some c)
  /-- The channel leads to the light client of the chainlet, and is that of a pending upgrade. -/
  trusted : c.TrustedOver parent world cb.port cb.channel

theorem Callback.Reaches.isTrusted {cb : Callback} {parent : Parent ω} {world : ω} {o : Overlay}
    {data : PacketData} {news : Handshake.News} {c : Chainlet} {t : Handshake.Transition}
    (h : cb.Reaches parent world o data news c t) : cb.Trusted parent world o data.chainId c :=
  ⟨⟨data, h.tells.content, rfl, h.found⟩, h.trusted⟩

/-- **A callback that is not trusted changes nothing.** If the context changes at all, the callback
is trusted and only the record of the chainlet that it names is touched; and unless the callback is
trusted it fails, and the context is what it was. -/
theorem Callback.perform_trusted (cb : Callback) (store : Store) (parent : Parent ω)
    (live : Live ω) :
    let before := Overlay.mk store live.context.updates
    let after := Controller.perform store parent cb.request live
    (after.2.context = live.context ∨
      ∃ chainId c, cb.Trusted parent live.world before chainId c ∧
        (∀ k, k ≠ (Entry.chainlet c.chainId).key →
          Readable.get? (Overlay.mk store after.2.context.updates) k = Readable.get? before k) ∧
        ∀ reg : Registry, reg.WellFormed → reg.ShownBy before → c.chainId = chainId) ∧
    ((∃ chainId c, cb.Trusted parent live.world before chainId c) ∨
      ∃ failure, after.1 = cb.refusal failure ∧ after.2.context = live.context) := by
  intro before after
  rcases cb.perform_cases store parent live with
    ⟨failure, hresult, hcontext⟩ | ⟨data, news, c, t, hreaches, -, -, hupdates⟩
  · exact ⟨.inl hcontext, .inr ⟨failure, hresult, hcontext⟩⟩
  · have htrusted := hreaches.isTrusted
    refine ⟨.inr ⟨data.chainId, c, htrusted, fun k hk => ?_, fun reg hreg hshows => ?_⟩,
      .inl ⟨data.chainId, c, htrusted⟩⟩
    · have hwritten : after.2.context.updates = Operation.written c t live.context.updates :=
        hupdates
      rw [hwritten]
      exact Operation.get?_written store t live.context.updates hk
    · exact (hreaches.held hreg hshows).2

end Chainlets
