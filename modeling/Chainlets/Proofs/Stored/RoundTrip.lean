import Chainlets.Stored.State
import Chainlets.Proofs.Text.RoundTrip

/-!
# Values survive their stored forms

The reader of a type takes a value back from the front of the bytes that its stored form begins,
and leaves what follows. The statement carries an arbitrary tail, because the reader of a record
reads its fields one after the other from the same bytes.

The only condition is that the value can be stored at all: a text or a list whose count needs more
than four bytes has a stored form that reads back as something else, and is never written.

## Main definitions

* `Stored.Lawful` — values that can be stored are read back.

## Main results

* `Stored.decode_encode`.
* Instances of `Stored.Lawful` for everything that is kept in the store.
-/

namespace Chainlets.Stored

/-- A format whose reader takes back every value that can be stored, whatever follows it. -/
class Lawful (α : Type) [Format α] : Prop where
  reader_encode : ∀ {a : α}, fits a = true → ∀ tail : Bytes,
    (reader : Reader α) (encode a ++ tail) = .ok (a, tail)

export Lawful (reader_encode)

/-- **A value that can be stored is read back.** -/
theorem decode_encode {α : Type} [Format α] [Lawful α] {a : α} (h : fits a = true) :
    decode (encode a) = .ok a := by
  have hread := reader_encode h []
  rw [List.append_nil] at hread
  rw [decode, StateT.run', hread]
  rfl

/-! ### Readers in sequence -/

variable {α β : Type}

/-- A reader that goes on after another one goes on with what that one left. -/
theorem bind_of_ok {x : Reader α} {f : α → Reader β} {bytes rest : Bytes} {a : α}
    (h : x bytes = .ok (a, rest)) : (x >>= f) bytes = f a rest := by
  change (x bytes >>= fun p => f p.1 p.2) = f a rest
  rw [h]
  rfl

theorem map_of_ok {x : Reader α} {f : α → β} {bytes rest : Bytes} {a : α}
    (h : x bytes = .ok (a, rest)) : (f <$> x) bytes = .ok (f a, rest) := by
  change ((fun p : α × Bytes => (f p.1, p.2)) <$> x bytes) = .ok (f a, rest)
  rw [h]
  rfl

/-- A reader that begins with a field goes on after it. -/
theorem bind_reader [Format α] [Lawful α] {a : α} (h : fits a = true) (f : α → Reader β)
    (tail : Bytes) : ((reader : Reader α) >>= f) (encode a ++ tail) = f a tail :=
  bind_of_ok (reader_encode h tail)

theorem pure_apply (a : α) (bytes : Bytes) : (pure a : Reader α) bytes = .ok (a, bytes) := rfl

theorem takeBytes_append (bytes tail : Bytes) :
    takeBytes bytes.length (bytes ++ tail) = .ok (bytes, tail) := by
  rw [takeBytes, if_neg (by simp)]
  simp

/-! ### Numbers -/

@[simp]
theorem length_littleEndian (width n : Nat) : (littleEndian width n).length = width := by
  induction width generalizing n with
  | zero => rfl
  | succ width ih => rw [littleEndian, List.length_cons, ih]

/-- A number that the width has room for is the number of its bytes. -/
theorem ofLittleEndian_littleEndian {width n : Nat} (h : n < Nat.pow 256 width) :
    ofLittleEndian (littleEndian width n) = n := by
  induction width generalizing n with
  | zero =>
    change n < 1 at h
    have hn : n = 0 := by omega
    rw [hn]
    rfl
  | succ width ih =>
    have hdiv : n / 256 < Nat.pow 256 width := by
      change n < Nat.pow 256 width * 256 at h
      exact Nat.div_lt_of_lt_mul (by rwa [Nat.mul_comm])
    have hbyte : (UInt8.ofNat (n % 256)).toNat = n % 256 := Utf8.toNat_ofNat_lt (by omega)
    have hrest := ih hdiv
    rw [ofLittleEndian] at hrest
    rw [littleEndian, ofLittleEndian, List.foldr_cons, hrest, hbyte]
    omega

theorem takeBytes_littleEndian (width n : Nat) (tail : Bytes) :
    takeBytes width (littleEndian width n ++ tail) = .ok (littleEndian width n, tail) := by
  have h := takeBytes_append (littleEndian width n) tail
  rwa [length_littleEndian] at h

theorem count_littleEndian {n : Nat} (h : n ≤ maxCount) (tail : Bytes) :
    count (littleEndian 4 n ++ tail) = .ok (n, tail) := by
  rw [count, bind_of_ok (takeBytes_littleEndian 4 n tail),
    ofLittleEndian_littleEndian (Nat.lt_of_le_of_lt h (by decide))]
  rfl

instance : Lawful Bool where
  reader_encode {b} _ tail := by cases b <;> rfl

instance : Lawful UInt64 where
  reader_encode {n} _ tail := by
    have hn : n.toNat < Nat.pow 256 8 := n.toNat_lt
    change (takeBytes 8 >>= _) (littleEndian 8 n.toNat ++ tail) = _
    rw [bind_of_ok (takeBytes_littleEndian 8 n.toNat tail), ofLittleEndian_littleEndian hn,
      UInt64.ofNat_toNat]
    rfl

instance : Lawful Amount where
  reader_encode {a} _ tail := by
    have ha : a.toNat < Nat.pow 256 16 := Nat.lt_of_lt_of_le a.toNat_lt (by decide)
    change (takeBytes 16 >>= _) (littleEndian 16 a.toNat ++ tail) = _
    rw [bind_of_ok (takeBytes_littleEndian 16 a.toNat tail), ofLittleEndian_littleEndian ha,
      Amount.ofNat?_toNat]
    rfl

instance : Lawful Height where
  reader_encode {h} _ tail :=
    map_of_ok (f := Height.mk) (reader_encode (a := h.number) rfl tail)

instance : Lawful Time where
  reader_encode {t} _ tail :=
    map_of_ok (f := Time.mk) (reader_encode (a := t.nanos) rfl tail)

/-! ### Texts, lists and optional values -/

instance : Lawful String where
  reader_encode {s} h tail := by
    have hcount : (Utf8.encode s).length ≤ maxCount := of_decide_eq_true h
    change (count >>= _) (littleEndian 4 (Utf8.encode s).length ++ Utf8.encode s ++ tail) = _
    rw [List.append_assoc, bind_of_ok (count_littleEndian hcount _),
      bind_of_ok (takeBytes_append (Utf8.encode s) tail), Utf8.decode_encode]
    rfl

/-- Values that were written one after the other are read back one after the other. -/
theorem many_flatMap [Format α] [Lawful α] {items : List α} (h : ∀ a ∈ items, fits a = true)
    (tail : Bytes) :
    many (reader : Reader α) items.length (items.flatMap encode ++ tail) = .ok (items, tail) := by
  induction items with
  | nil => rfl
  | cons a items ih =>
    have hrest := ih fun b hb => h b (List.mem_cons_of_mem a hb)
    rw [List.length_cons, many, List.flatMap_cons, List.append_assoc,
      bind_reader (h a List.mem_cons_self), bind_of_ok hrest, pure_apply]

instance [Format α] [Lawful α] : Lawful (List α) where
  reader_encode {items} h tail := by
    obtain ⟨hcount, hitems⟩ : items.length ≤ maxCount ∧ ∀ a ∈ items, fits a = true := by
      simpa [fits] using h
    change (count >>= _) (littleEndian 4 items.length ++ items.flatMap encode ++ tail) = _
    rw [List.append_assoc, bind_of_ok (count_littleEndian hcount _)]
    exact many_flatMap hitems tail

instance [Format α] [Lawful α] : Lawful (Option α) where
  reader_encode {item?} h tail := by
    cases item? with
    | none => rfl
    | some a => exact map_of_ok (f := some) (reader_encode (a := a) h tail)

/-! ### Records

The reader of a record is opened field by field: the stored form is brought into the shape of one
field and what follows it, and each field is read off the front. -/

instance : Lawful StackFees where
  reader_encode {fees} h tail := by
    have hdenom : fits fees.denom = true := h
    change (reader >>= _)
      (encode fees.denom ++ encode fees.epochFee ++ encode fees.setupFee ++ tail) = _
    simp only [List.append_assoc]
    rw [bind_reader hdenom, bind_reader rfl, bind_reader rfl, pure_apply]

instance : Lawful StackVersion where
  reader_encode {v} h tail := by
    obtain ⟨⟨himage, hversion⟩, hchecksum⟩ :
        (fits v.image = true ∧ fits v.version = true) ∧ fits v.checksum = true := by
      simpa [fits] using h
    change (reader >>= _) (encode v.image ++ encode v.version ++ encode v.checksum ++
      encode v.enabled ++ encode v.isConsumer ++ tail) = _
    simp only [List.append_assoc]
    rw [bind_reader himage, bind_reader hversion, bind_reader hchecksum, bind_reader rfl,
      bind_reader rfl, pure_apply]

instance : Lawful Stack where
  reader_encode {stack} h tail := by
    obtain ⟨⟨⟨hname, hdescription⟩, hfees⟩, hversions⟩ :
        ((fits stack.name = true ∧ fits stack.description = true) ∧ fits stack.fees = true) ∧
          fits stack.versions = true := by
      simpa only [fits, Bool.and_eq_true] using h
    change (reader >>= _) (encode stack.name ++ encode stack.description ++ encode stack.fees ++
      encode stack.versions ++ tail) = _
    simp only [List.append_assoc]
    rw [bind_reader hname, bind_reader hdescription, bind_reader hfees, bind_reader hversions,
      pure_apply]

instance : Lawful Status where
  reader_encode {status} _ tail := by cases status <;> rfl

instance : Lawful ConsumerId where
  reader_encode {id} h tail :=
    map_of_ok (f := ConsumerId.mk) (reader_encode (a := id.text) h tail)

instance : Lawful PendingUpgrade where
  reader_encode {upgrade} h tail := by
    obtain ⟨hversion, hchannel⟩ :
        fits upgrade.targetVersion = true ∧ fits upgrade.channel = true := by
      simpa only [fits, Bool.and_eq_true] using h
    change (reader >>= _) (encode upgrade.targetVersion ++ encode upgrade.targetHeight ++
      encode upgrade.channel ++ tail) = _
    simp only [List.append_assoc]
    rw [bind_reader hversion, bind_reader rfl, bind_reader hchannel, pure_apply]

instance : Lawful Chainlet where
  reader_encode {c} h tail := by
    obtain ⟨⟨⟨⟨⟨⟨⟨hchain, hname⟩, hlauncher⟩, hmaintainers⟩, hstack⟩, hversion⟩, hconsumer⟩,
        hupgrade⟩ :
        ((((((fits c.chainId = true ∧ fits c.name = true) ∧ fits c.launcher = true) ∧
          fits c.maintainers = true) ∧ fits c.stack = true) ∧ fits c.version = true) ∧
          fits c.consumer? = true) ∧ fits c.upgrade? = true := by
      simpa only [fits, Bool.and_eq_true] using h
    change (reader >>= _) (encode c.chainId ++ encode c.name ++ encode c.launcher ++
      encode c.maintainers ++ encode c.stack ++ encode c.version ++ encode c.status ++
      encode c.autoUpgrade ++ encode c.isConsumer ++ encode c.consumer? ++ encode c.spawnTime ++
      encode c.isService ++ encode c.upgrade? ++ tail) = _
    simp only [List.append_assoc]
    rw [bind_reader hchain, bind_reader hname, bind_reader hlauncher, bind_reader hmaintainers,
      bind_reader hstack, bind_reader hversion, bind_reader rfl, bind_reader rfl, bind_reader rfl,
      bind_reader hconsumer, bind_reader rfl, bind_reader rfl, bind_reader hupgrade, pure_apply]

instance : Lawful Params where
  reader_encode {p} _ tail := by
    change (reader >>= _) (encode p.stackProtections ++ encode p.maxChainlets ++
      encode p.automaticUpgrades ++ encode p.automaticUpgradeInterval ++
      encode p.minUpgradeHeightDelta ++ encode p.timeoutHeightDelta ++ encode p.timeoutSecs ++
      encode p.unbondingSecs ++ encode p.depositEpochs ++ tail) = _
    simp only [List.append_assoc]
    rw [bind_reader rfl, bind_reader rfl, bind_reader rfl, bind_reader rfl, bind_reader rfl,
      bind_reader rfl, bind_reader rfl, bind_reader rfl, bind_reader rfl, pure_apply]

end Chainlets.Stored
