import TaintdroidHack.SendHttpPost

/-! The send loop and the receive loop of `send_http_post` as transfers over
the channels that the network offers. -/

namespace TaintdroidHack

open Framing Transfer

variable {env : NetEnv} {m : Bytes} {s₀ s : NetState}

def readSizes (env : NetEnv) : Nat → Option Nat := fun i => (env.reads i).map List.length

def arrived (env : NetEnv) (k : Nat) : Bytes :=
  (List.range k).flatMap fun i => (env.reads i).getD []

theorem arrived_succ (env : NetEnv) (k : Nat) :
    arrived env (k + 1) = arrived env k ++ (env.reads k).getD [] := by
  rw [arrived, List.range_succ, List.flatMap_append]
  simp [arrived]

theorem length_arrived (env : NetEnv) (k : Nat) :
    (arrived env k).length = amount (readSizes env) k := by
  induction k with
  | zero => rfl
  | succ k ih =>
    rw [arrived_succ, List.length_append, ih, amount_succ, readSizes]
    cases env.reads k <;> rfl

def writeEvent (env : NetEnv) (m : Bytes) (total : Int) (h : Int × NetState) : Event :=
  .write h.1 (toSize (total - h.1)) (writeCall env m total h.2 h.1).1

theorem writeCall_trace (env : NetEnv) (m : Bytes) (total sent : Int) (s : NetState) :
    (writeCall env m total s sent).2.trace = s.trace ++ [writeEvent env m total (sent, s)] := by
  cases hf : env.writes s.writeCalls <;> simp only [writeEvent, writeCall, hf]

def readEvent (env : NetEnv) (total : Int) (h : Int × NetState) : Event :=
  .read h.1 (toSize (total - h.1)) (readCall env total h.2 h.1).1

theorem readCall_trace (env : NetEnv) (total received : Int) (s : NetState) :
    (readCall env total s received).2.trace = s.trace ++ [readEvent env total (received, s)] := by
  cases hf : env.reads s.readCalls <;> simp only [readEvent, readCall, hf]

theorem writeCall_resources (env : NetEnv) (m : Bytes) (total : Int) (s : NetState) (sent : Int) :
    resources (writeCall env m total s sent).2.trace = resources s.trace := by
  rw [writeCall_trace, resources_append]
  exact List.append_nil _

theorem writeCall_readCalls (env : NetEnv) (m : Bytes) (total : Int) (s : NetState) (sent : Int) :
    (writeCall env m total s sent).2.readCalls = s.readCalls := by
  rw [writeCall]
  cases env.writes s.writeCalls <;> rfl

theorem readCall_resources (env : NetEnv) (total : Int) (s : NetState) (received : Int) :
    resources (readCall env total s received).2.trace = resources s.trace := by
  rw [readCall_trace, resources_append]
  exact List.append_nil _

theorem readCall_wire (env : NetEnv) (total : Int) (s : NetState) (received : Int) :
    (readCall env total s received).2.wire = s.wire := by
  rw [readCall]
  cases env.reads s.readCalls <;> rfl

theorem writeCall_serves (env : NetEnv) {m : Bytes} (hm : m.length < 2 ^ 31) :
    Serves env.writes m.length NetState.writeCalls (writeCall env m m.length) where
  next s k := by
    rw [writeCall]
    cases env.writes s.writeCalls <;> rfl
  fails s k hf := by
    rw [writeCall, hf]
    simp
  moves s k n hk hf := by
    rw [writeCall, hf, toSize_sub hk.le hm]
    simp only [toInt_of_lt (show min n (m.length - k) < 2 ^ 31 by omega)]

theorem writeCall_some {k n : Nat} (hm : m.length < 2 ^ 31) (hk : k < m.length)
    (hf : env.writes s.writeCalls = some n) :
    (writeCall env m m.length s k).2 =
      { s with trace := s.trace ++ [.write k (m.length - k) (min n (m.length - k) : Nat)]
               writeCalls := s.writeCalls + 1
               wire := s.wire ++ (m.drop k).take (min n (m.length - k)) } := by
  rw [writeCall, hf, toSize_sub hk.le hm]
  simp only [toInt_of_lt (show min n (m.length - k) < 2 ^ 31 by omega), Int.toNat_natCast]

theorem readCall_serves (env : NetEnv) :
    Serves (readSizes env) 4095 NetState.readCalls (readCall env (4095 : Nat)) where
  next s k := by
    rw [readCall]
    cases env.reads s.readCalls <;> rfl
  fails s k hf := by
    rw [readSizes, Option.map_eq_none_iff] at hf
    rw [readCall, hf]
    simp
  moves s k n hk hf := by
    obtain ⟨chunk, hc, rfl⟩ := Option.map_eq_some_iff.mp hf
    rw [readCall, hc, toSize_sub hk.le (by omega)]
    simp only [List.length_take, Nat.min_comm,
      toInt_of_lt (show min chunk.length (4095 - k) < 2 ^ 31 by omega)]

theorem readCall_some {k : Nat} {chunk : Bytes} (hk : k < 4095)
    (hf : env.reads s.readCalls = some chunk) :
    (readCall env (4095 : Nat) s k).2 =
      { s with trace := s.trace ++ [.read k (4095 - k) (min chunk.length (4095 - k) : Nat)]
               readCalls := s.readCalls + 1
               response := overwrite s.response k (chunk.take (4095 - k)) } := by
  rw [readCall, hf, toSize_sub hk.le (by omega)]
  simp only [List.length_take, Nat.min_comm, Int.toNat_natCast,
    toInt_of_lt (show min chunk.length (4095 - k) < 2 ^ 31 by omega)]

structure Sending (m : Bytes) (s₀ : NetState) (k : Nat) (s : NetState) : Prop where
  wire : s.wire = m.take k
  resources : resources s.trace = resources s₀.trace
  readCalls : s.readCalls = s₀.readCalls

structure Receiving (env : NetEnv) (s₀ : NetState) (k : Nat) (s : NetState) : Prop where
  response : s.response = (arrived env s.readCalls).take k ++ List.replicate (4096 - k) 0
  resources : resources s.trace = resources s₀.trace
  wire : s.wire = s₀.wire

theorem Sending.step {k n : Nat} (hm : m.length < 2 ^ 31) (h : Sending m s₀ k s)
    (hk : k < m.length) (hf : env.writes s.writeCalls = some n) :
    Sending m s₀ (k + min n (m.length - k)) (writeCall env m m.length s k).2 := by
  rw [writeCall_some hm hk hf]
  refine ⟨?_, ?_, h.readCalls⟩
  · rw [h.wire, List.take_add]
  · rw [resources_append, h.resources]
    exact List.append_nil _

theorem Sending.call {k : Nat} (env : NetEnv) (hm : m.length < 2 ^ 31) (h : Sending m s₀ k s)
    (hk : k < m.length) :
    Sending m s₀ (k + (writeCall env m m.length s k).1.toNat) (writeCall env m m.length s k).2 := by
  cases hf : env.writes s.writeCalls with
  | none =>
    have hfailed : (writeCall env m m.length s k).1.toNat = 0 := by
      rw [writeCall, hf]
      rfl
    have hwire : (writeCall env m m.length s k).2.wire = s.wire := by
      rw [writeCall, hf]
    rw [hfailed, Nat.add_zero]
    exact ⟨hwire.trans h.wire, (writeCall_resources env m m.length s k).trans h.resources,
      (writeCall_readCalls env m m.length s k).trans h.readCalls⟩
  | some n =>
    rw [(writeCall_serves env hm).moves s k n hk hf, Int.toNat_natCast]
    exact h.step hm hk hf

theorem overwrite_zeros {data : Bytes} {k n : Nat} (new : Bytes) (hd : data.length = k)
    (hn : k + new.length ≤ n) :
    overwrite (data ++ List.replicate (n - k) 0) k new =
      data ++ new ++ List.replicate (n - (k + new.length)) 0 := by
  have hdrop : data.drop (k + new.length) = [] := List.drop_eq_nil_of_le (by omega)
  rw [overwrite, List.take_left' hd, List.drop_append, hdrop, List.nil_append,
    List.drop_replicate]
  congr 2
  omega

theorem Receiving.step {k n : Nat} (h : Receiving env s₀ k s)
    (he : k = amount (readSizes env) s.readCalls) (hk : k < 4095)
    (hf : readSizes env s.readCalls = some n) :
    Receiving env s₀ (k + min n (4095 - k)) (readCall env (4095 : Nat) s k).2 := by
  obtain ⟨chunk, hc, rfl⟩ := Option.map_eq_some_iff.mp hf
  have hlen : (arrived env s.readCalls).length = k := by rw [length_arrived, he]
  have hnew : (chunk.take (4095 - k)).length = min chunk.length (4095 - k) := by
    rw [List.length_take, Nat.min_comm]
  rw [readCall_some hk hc]
  refine ⟨?_, ?_, h.wire⟩
  · show overwrite s.response k (chunk.take (4095 - k)) =
      (arrived env (s.readCalls + 1)).take (k + min chunk.length (4095 - k)) ++
        List.replicate (4096 - (k + min chunk.length (4095 - k))) 0
    have htake : (arrived env (s.readCalls + 1)).take (k + min chunk.length (4095 - k)) =
        arrived env s.readCalls ++ chunk.take (4095 - k) := by
      rw [arrived_succ, hc, Option.getD_some, ← hlen, List.take_length_add_append, hlen]
      congr 1
      rw [List.take_eq_take_iff]
      omega
    rw [htake, h.response, List.take_of_length_le hlen.le, overwrite_zeros _ hlen (by omega), hnew]
  · rw [resources_append, h.resources]
    exact List.append_nil _

theorem Receiving.call {k : Nat} (h : Receiving env s₀ k s)
    (he : k = amount (readSizes env) s.readCalls) (hk : k < 4095) :
    Receiving env s₀ (k + (readCall env (4095 : Nat) s k).1.toNat)
      (readCall env (4095 : Nat) s k).2 := by
  cases hf : env.reads s.readCalls with
  | none =>
    have hfailed : (readCall env (4095 : Nat) s k).1.toNat = 0 := by
      rw [readCall, hf]
      rfl
    have hresponse : (readCall env (4095 : Nat) s k).2.response = s.response := by
      rw [readCall, hf]
    have hcalls : arrived env (readCall env (4095 : Nat) s k).2.readCalls =
        arrived env s.readCalls := by
      rw [(readCall_serves env).next, arrived_succ, hf]
      exact List.append_nil _
    rw [hfailed, Nat.add_zero]
    refine ⟨?_, (readCall_resources env (4095 : Nat) s k).trans h.resources,
      (readCall_wire env (4095 : Nat) s k).trans h.wire⟩
    rw [hcalls, hresponse]
    exact h.response
  | some chunk =>
    have hsize : readSizes env s.readCalls = some chunk.length := by
      rw [readSizes, hf, Option.map_some]
    rw [(readCall_serves env).moves s k chunk.length hk hsize, Int.toNat_natCast]
    exact h.step he hk hsize

theorem sendLoop_left (env : NetEnv) {m : Bytes} (h0 : 0 ∉ m) (hm : m.length < 2 ^ 31)
    (hpos : 0 < m.length) {s : NetState} (hw : s.writeCalls = 0) (hwire : s.wire = []) :
    Left env.writes m.length NetState.writeCalls (writeCall env m m.length) (Sending m s)
      (sendLoop env m s) := by
  have hI : Sending m s 0 s := ⟨by rw [hwire, List.take_zero], rfl, rfl⟩
  have hh := (writeCall_serves env hm).left
    (fun k s' n hk _ hlt _ hf => hk.step hm hlt hf) (m := 0) (s := s)
    (by rw [hw, amount_zero]) (by rw [hw]; exact progress_zero _) hpos hI
  rw [sendLoop, strlen_of_zero_not_mem h0, toInt_of_lt hm]
  exact hh

theorem toInt_responseSize : toInt (responseSize - 1) = (4095 : Nat) := toInt_of_lt (by decide)

theorem receiveLoop_left (env : NetEnv) {s : NetState} (hr : s.readCalls = 0) :
    Left (readSizes env) 4095 NetState.readCalls (readCall env (4095 : Nat)) (Receiving env s)
      (receiveLoop env s) := by
  have hI : Receiving env s 0 { s with response := List.replicate responseSize 0 } :=
    ⟨by rw [List.take_zero, List.nil_append, responseSize, Nat.sub_zero], rfl, rfl⟩
  have hh := (readCall_serves env).left
    (fun k s' n hk he hlt _ hf => hk.step he hlt hf) (m := 0)
    (s := { s with response := List.replicate responseSize 0 })
    (by rw [hr, amount_zero]) (by rw [hr]; exact progress_zero _) (by omega) hI
  rw [receiveLoop, toInt_responseSize]
  exact hh

end TaintdroidHack
