import Mirrorscope.Ebpf.Wire

/-! # What the payload decoders accept

The two decoders that check the length of their whole input, those of syscall entries and exits,
accept nothing but what their encoders write: an accepted byte string is the encoding of what
was decoded from it.
-/

namespace Mirrorscope.Capture

open Trace (leField encode_leField leField_lt)

variable {payload : Bytes}

/-- The words at consecutive places are the bytes there. -/
theorem encodeWords_leField {start n : Nat} (h : start + 8 * n ≤ payload.length) :
    encodeWords ((List.range n).map fun i => UInt64.ofNat (leField payload (start + i * 8) 8)) =
      (payload.drop start).take (8 * n) := by
  induction n with
  | zero => rfl
  | succ n ih =>
    have hword : LittleEndian.encode 8
        (UInt64.ofNat (leField payload (start + n * 8) 8)).toNat =
        (payload.drop (start + n * 8)).take 8 := by
      rw [LittleEndian.toNat_ofNat_u64 (leField_lt _ _ _), encode_leField (by omega)]
    have hlast : (payload.drop start).take (8 * (n + 1)) =
        (payload.drop start).take (8 * n) ++ (payload.drop (start + n * 8)).take 8 := by
      rw [Nat.mul_succ, List.take_add, List.drop_drop, Nat.mul_comm 8 n]
    rw [List.range_succ, List.map_append, encodeWords, List.flatMap_append, ← encodeWords,
      ih (by omega), hlast]
    simp only [List.map_cons, List.map_nil, List.flatMap_cons, List.flatMap_nil,
      List.append_nil, hword]

theorem SyscallEnter.encode_of_decode {v : SyscallEnter} (h : decode payload = .ok v) :
    v.encode = payload := by
  unfold decode at h
  split at h
  · cases h
  · rename_i hlen
    have hlen : payload.length = 56 := not_not.mp hlen
    rcases Except.ok.inj h with rfl
    have hwords : encodeWords ((List.range 6).map fun i =>
        UInt64.ofNat (leField payload (8 + i * 8) 8)) = (payload.drop 8).take (8 * 6) :=
      encodeWords_leField (Nat.le_of_eq hlen.symm)
    have hargs : (Vector.ofFn fun i : Fin 6 =>
        UInt64.ofNat (leField payload (8 + i * 8) 8)).toList =
        (List.range 6).map fun i => UInt64.ofNat (leField payload (8 + i * 8) 8) := by
      rfl
    have hnr : LittleEndian.encode 8 (UInt64.ofNat (leField payload 0 8)).toNat =
        payload.take 8 := by
      rw [LittleEndian.toNat_ofNat_u64 (leField_lt _ _ _), encode_leField (by omega),
        List.drop_zero]
    have hrest : (payload.drop 8).take (8 * 6) = payload.drop 8 := by
      rw [List.take_of_length_le]
      simp [hlen]
    rw [SyscallEnter.encode, hnr, hargs, hwords, hrest, List.take_append_drop]

/-- The entry decoder accepts the encodings of entries, and nothing else. -/
theorem SyscallEnter.decode_ok_iff :
    (∃ v, decode payload = .ok v) ↔ ∃ v : SyscallEnter, v.encode = payload := by
  constructor
  · rintro ⟨v, h⟩
    exact ⟨v, encode_of_decode h⟩
  · rintro ⟨v, rfl⟩
    exact ⟨v, decode_encode v⟩

theorem SyscallExit.encode_of_decode {v : SyscallExit} (h : decode payload = .ok v) :
    v.encode = payload ∧ v.data.length < 2 ^ 32 := by
  unfold decode at h
  split at h
  · cases h
  · rename_i hshort
    have hlen : 20 ≤ payload.length := Nat.not_lt.mp hshort
    dsimp only at h
    split at h
    · cases h
    · rename_i hdata
      have hdata : (payload.drop 20).length = leField payload 16 4 := not_not.mp hdata
      rcases Except.ok.inj h with rfl
      have hnr : LittleEndian.encode 8 (UInt64.ofNat (leField payload 0 8)).toNat =
          payload.take 8 := by
        rw [LittleEndian.toNat_ofNat_u64 (leField_lt _ _ _), encode_leField (by omega),
          List.drop_zero]
      have hret : LittleEndian.encode 8
          (UInt64.ofNat (leField payload 8 8)).toInt64.toUInt64.toNat =
          (payload.drop 8).take 8 := by
        rw [UInt64.toUInt64_toInt64, LittleEndian.toNat_ofNat_u64 (leField_lt _ _ _),
          encode_leField (by omega)]
      have hcount : LittleEndian.encode 4 (payload.drop 20).length =
          (payload.drop 16).take 4 := by
        rw [hdata, encode_leField (by omega)]
      constructor
      · show LittleEndian.encode 8 _ ++ LittleEndian.encode 8 _ ++
          LittleEndian.encode 4 (payload.drop 20).length ++ payload.drop 20 = payload
        rw [hnr, hret, hcount]
        -- The three fields are the prefix without a gap.
        have hglue : payload.take 8 ++ (payload.drop 8).take 8 ++ (payload.drop 16).take 4 =
            payload.take 20 := by
          rw [show (20 : Nat) = 8 + 8 + 4 from rfl, List.take_add, List.take_add]
        rw [hglue, List.take_append_drop]
      · show (payload.drop 20).length < 2 ^ 32
        rw [hdata]
        exact leField_lt payload 16 4

/-- The exit decoder accepts the encodings of exits with a data length that fits its field, and
nothing else. -/
theorem SyscallExit.decode_ok_iff :
    (∃ v, decode payload = .ok v) ↔
      ∃ v : SyscallExit, v.data.length < 2 ^ 32 ∧ v.encode = payload := by
  constructor
  · rintro ⟨v, h⟩
    obtain ⟨hencode, hfits⟩ := encode_of_decode h
    exact ⟨v, hfits, hencode⟩
  · rintro ⟨v, hfits, rfl⟩
    exact ⟨v, decode_encode hfits⟩

/-- Where a decoder accepts a set of byte strings, it refuses all others. -/
theorem refused_of_not {α : Type} {decoded : Except PayloadError α} {p : Prop}
    (h : (∃ v, decoded = .ok v) ↔ p) (hp : ¬ p) : ∃ e, decoded = .error e := by
  cases hdecoded : decoded with
  | ok v => exact absurd (h.mp ⟨v, hdecoded⟩) hp
  | error e => exact ⟨e, rfl⟩

/-- **The payload codecs are exact.** Every value is read back from its encoding, a syscall exit
where its data is shorter than `2 ^ 32` bytes, a raw event also with bytes after it. The decoders
of entries and exits accept nothing but those encodings, and give back the value encoded. -/
theorem payload_codecs_exact :
    (∀ v : SyscallEnter, SyscallEnter.decode v.encode = .ok v) ∧
    (∀ v : SyscallExit, v.data.length < 2 ^ 32 → SyscallExit.decode v.encode = .ok v) ∧
    (∀ v : SchedSwitch, SchedSwitch.decode v.encode = .ok v) ∧
    (∀ v : ThreadSpawn, ThreadSpawn.decode v.encode = .ok v) ∧
    (∀ v : ThreadExit, ThreadExit.decode v.encode = .ok v) ∧
    (∀ v : SignalDelivery, SignalDelivery.decode v.encode = .ok v) ∧
    (∀ (v : Ebpf.RawSyscallEvent) (extra : Bytes),
      Ebpf.RawSyscallEvent.decode (v.encode ++ extra) = some v) ∧
    (∀ b : Bytes, (∀ v, SyscallEnter.decode b = .ok v → v.encode = b) ∧
      ((¬ ∃ v : SyscallEnter, v.encode = b) → ∃ e, SyscallEnter.decode b = .error e)) ∧
    ∀ b : Bytes, (∀ v, SyscallExit.decode b = .ok v → v.encode = b) ∧
      ((¬ ∃ v : SyscallExit, v.data.length < 2 ^ 32 ∧ v.encode = b) →
        ∃ e, SyscallExit.decode b = .error e) :=
  ⟨SyscallEnter.decode_encode, fun _ => SyscallExit.decode_encode, SchedSwitch.decode_encode,
    ThreadSpawn.decode_encode, ThreadExit.decode_encode, SignalDelivery.decode_encode,
    Ebpf.RawSyscallEvent.decode_encode,
    fun _ => ⟨fun _ => SyscallEnter.encode_of_decode, refused_of_not SyscallEnter.decode_ok_iff⟩,
    fun _ => ⟨fun _ h => (SyscallExit.encode_of_decode h).1,
      refused_of_not SyscallExit.decode_ok_iff⟩⟩

end Mirrorscope.Capture
