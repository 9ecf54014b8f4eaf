/-
**Sending over a blocking socket** (`tcpSocket.h`, `tcpSocket.cpp`).

`CTcpSocket::Send` calls `::send` until the whole buffer is taken or a call takes nothing.  The
kernel may take any part of what it is offered, or fail; what it answers is a sequence of outcomes,
one for each call.  The total is kept in `sendLen`, but the branch for the errors after which one
tries again returns 0 and not the total, so that a caller who goes on from the value returned sends
again what was taken before.

Main definitions:

* `SendOutcome`, `CTcpSocket.sendLoop`, `CTcpSocket.send` — `CTcpSocket::Send`;
* `CTcpSocket.recv` — `CTcpSocket::Recv`;
* `CTcpSocket.Reports` — the value returned is the number of bytes the kernel accepted;
* `CTcpSocket.Interrupted` — an error to try again after comes behind a call that took something.

Main results:

* `CTcpSocket.sendLoop_ends` — **where the loop ends, and with which total**;
* `send_reports_iff` — **when the value returned is right**.
-/

import WebSocketDemo.Lib.ByteOrder
import Mathlib.Algebra.Order.BigOperators.Group.Finset

set_option relaxedAutoImplicit false
set_option autoImplicit false

namespace WebSocketDemo

/-- What one call of `::send` comes to: the number of bytes it would take, or the `errno` with which
it fails. -/
inductive SendOutcome
  | sent (count : ℕ)
  | failed (errno : ℕ)
  deriving DecidableEq, Repr

/-- The number of bytes. -/
def SendOutcome.count : SendOutcome → ℕ
  | .sent count => count
  | .failed _ => 0

/-- What one call of `::recv` comes to; the peer has closed the connection when nothing is received.
-/
inductive RecvOutcome
  | received (data : Bytes)
  | failed (errno : ℕ)
  deriving DecidableEq, Repr

/-- `EINTR`, `EAGAIN` and `EWOULDBLOCK`. -/
def eintr : ℕ := 4
def eagain : ℕ := 11
def ewouldblock : ℕ := 11

/-- The errors after which `Send` returns 0. -/
def TryAgain (errno : ℕ) : Prop := errno = eintr ∨ errno = eagain ∨ errno = ewouldblock

instance (errno : ℕ) : Decidable (TryAgain errno) :=
  inferInstanceAs (Decidable (errno = eintr ∨ errno = eagain ∨ errno = ewouldblock))

namespace CTcpSocket

/-- The variables of `Send` when its loop is left, with the bytes the kernel has accepted and the
number of calls. -/
structure Sending where
  sendLen : ℕ
  last : SendOutcome
  accepted : Bytes
  calls : ℕ
  deriving DecidableEq, Repr

/-- The loop of `Send`, from the call with number `i`.  The kernel takes no more than it is
offered. -/
def sendLoop (outs : ℕ → SendOutcome) (buff : Bytes) (i sendLen : ℕ) (accepted : Bytes) : Sending :=
  match outs i with
  | .failed errno => ⟨sendLen, .failed errno, accepted, i + 1⟩
  | .sent count =>
      let offered := buff.drop sendLen
      let len := min count offered.length
      let accepted := accepted ++ offered.take len
      if 0 < len ∧ sendLen + len < buff.length then
        sendLoop outs buff (i + 1) (sendLen + len) accepted
      else ⟨sendLen + len, .sent len, accepted, i + 1⟩
termination_by buff.length - sendLen

/-- `Send`: the value returned, the bytes the kernel has accepted, and the number of calls. -/
structure Sent where
  value : ℕ
  accepted : Bytes
  calls : ℕ
  deriving DecidableEq, Repr

/-- `CTcpSocket::Send`. -/
def send (outs : ℕ → SendOutcome) (buff : Bytes) : Sent :=
  let s := sendLoop outs buff 0 0 []
  match s.last with
  | .failed errno =>
      if TryAgain errno then ⟨0, s.accepted, s.calls⟩ else ⟨s.sendLen, s.accepted, s.calls⟩
  | .sent _ => ⟨s.sendLen, s.accepted, s.calls⟩

/-- `CTcpSocket::Recv`: the value returned, and what is in the buffer. -/
def recv (out : RecvOutcome) (buffLen : ℕ) : ℤ × Bytes :=
  match out with
  | .received data => ((data.take buffLen).length, data.take buffLen)
  | .failed errno => if errno = eagain ∨ errno = eintr then (0, []) else (-1, [])

/-- The value returned is the number of bytes that were accepted, and a caller who goes on from
there has each byte sent once. -/
def Reports (buff : Bytes) (r : Sent) : Prop :=
  r.value = r.accepted.length ∧ r.accepted ++ buff.drop r.value = buff

/-- The bytes the first `k` calls would take. -/
def taken (outs : ℕ → SendOutcome) (k : ℕ) : ℕ := ∑ i ∈ Finset.range k, (outs i).count

/-- The first call that takes nothing comes behind one that took something, before all of the `n`
bytes are taken, and fails with an error after which one tries again. -/
def Interrupted (outs : ℕ → SendOutcome) (n : ℕ) : Prop :=
  ∃ k errno, 0 < k ∧ (∀ i < k, 0 < (outs i).count) ∧ taken outs k < n ∧
    outs k = .failed errno ∧ TryAgain errno

variable {outs : ℕ → SendOutcome} {buff : Bytes}

/-! ### The loop -/

theorem taken_succ (k : ℕ) : taken outs (k + 1) = taken outs k + (outs k).count :=
  Finset.sum_range_succ _ k

theorem taken_mono {j k : ℕ} (h : j ≤ k) : taken outs j ≤ taken outs k :=
  Finset.sum_le_sum_of_subset (Finset.range_mono h)

/-- Calls that take something take as many bytes as there are calls. -/
theorem le_taken {k : ℕ} (h : ∀ i < k, 0 < (outs i).count) : k ≤ taken outs k := by
  induction k with
  | zero => exact Nat.zero_le _
  | succ k ih =>
      have hk := ih fun i hi => h i (Nat.lt_succ_of_lt hi)
      have hlast := h k (Nat.lt_succ_self k)
      rw [taken_succ]
      omega

/-- Where the loop is left: all bytes are taken, or a call took none. -/
inductive Ends (outs : ℕ → SendOutcome) (buff : Bytes) (s : Sending) : Prop
  | full (hlen : s.sendLen = buff.length) (k : ℕ) (hk : s.calls = k + 1)
      (hpos : ∀ i < k, 0 < (outs i).count) (hlt : taken outs k < buff.length)
      (hle : buff.length ≤ taken outs (k + 1)) (hlast : ∃ count, s.last = .sent count)
  | stopped (k : ℕ) (hk : s.calls = k + 1) (hpos : ∀ i < k, 0 < (outs i).count)
      (hlen : s.sendLen = taken outs k) (hlt : taken outs k < buff.length)
      (hzero : (outs k).count = 0) (hlast : s.last = outs k)

/-- **Where the loop ends.**  What is accepted is the front of the buffer, and `sendLen` is its
length. -/
theorem sendLoop_ends (outs : ℕ → SendOutcome) (buff : Bytes) (i sendLen : ℕ) (accepted : Bytes)
    (hpos : ∀ j < i, 0 < (outs j).count)
    (hlen : sendLen = taken outs i) (hlt : sendLen < buff.length)
    (hacc : accepted = buff.take sendLen) :
    Ends outs buff (sendLoop outs buff i sendLen accepted) ∧
      (sendLoop outs buff i sendLen accepted).accepted =
        buff.take (sendLoop outs buff i sendLen accepted).sendLen ∧
      (sendLoop outs buff i sendLen accepted).sendLen ≤ buff.length := by
  induction i, sendLen, accepted using sendLoop.induct outs buff with
  | case1 i sendLen accepted errno hout =>
      rw [sendLoop, hout]
      refine ⟨.stopped i rfl hpos hlen (hlen ▸ hlt) ?_ hout.symm, hacc, hlt.le⟩
      rw [hout]
      rfl
  | case2 i sendLen accepted count hout offered len accepted' hmore ih =>
      have hoffered : offered.length = buff.length - sendLen := List.length_drop
      have hcount : (outs i).count = count := by rw [hout]; rfl
      have hlen' : len = count := by omega
      rw [sendLoop, hout]
      dsimp only
      rw [if_pos hmore]
      refine ih ?_ ?_ hmore.2 ?_
      · intro j hj
        rcases Nat.lt_succ_iff_lt_or_eq.1 hj with hj | rfl
        · exact hpos j hj
        · rw [hcount]
          omega
      · rw [taken_succ, hcount, ← hlen, hlen']
      · rw [List.take_add, ← hacc]
  | case3 i sendLen accepted count hout offered len hstop =>
      have hoffered : offered.length = buff.length - sendLen := List.length_drop
      have hcount : (outs i).count = count := by rw [hout]; rfl
      have hsucc : taken outs (i + 1) = sendLen + count := by rw [taken_succ, hcount, ← hlen]
      rw [sendLoop, hout]
      dsimp only
      rw [if_neg hstop]
      refine ⟨?_, ?_, ?_⟩
      · by_cases h0 : count = 0
        · have hnone : len = 0 := by omega
          refine .stopped i rfl hpos ?_ (hlen ▸ hlt) (by rw [hcount, h0]) ?_
          · change sendLen + len = taken outs i
            rw [hnone, Nat.add_zero, hlen]
          · change SendOutcome.sent len = outs i
            rw [hout, hnone, h0]
        · refine .full ?_ i rfl hpos (hlen ▸ hlt) (by omega) ⟨len, rfl⟩
          change sendLen + len = buff.length
          omega
      · change accepted ++ offered.take len = buff.take (sendLen + len)
        rw [List.take_add, ← hacc]
      · change sendLen + len ≤ buff.length
        omega

/-- The loop ends after at most as many calls as there are bytes. -/
theorem Ends.calls_le {s : Sending} (h : Ends outs buff s) : s.calls ≤ buff.length := by
  cases h with
  | full _ k hk hpos hlt _ _ =>
      have hle := le_taken hpos
      omega
  | stopped k hk hpos _ hlt _ _ =>
      have hle := le_taken hpos
      omega

/-- The call that is the first to take nothing is the only one. -/
theorem Ends.interrupted_iff {s : Sending} (h : Ends outs buff s) :
    Interrupted outs buff.length ↔ 0 < s.sendLen ∧ ∃ errno, s.last = .failed errno ∧
      TryAgain errno := by
  cases h with
  | full hlen k hk hpos hlt hle hlast =>
      obtain ⟨count, hlast⟩ := hlast
      constructor
      · rintro ⟨j, errno, _, hposj, hltj, hout, _⟩
        exfalso
        -- the error would come after all bytes were taken
        have hzero : (outs j).count = 0 := by rw [hout]; rfl
        by_cases hjk : j < k
        · have hj := hpos j hjk
          omega
        · rcases Nat.lt_or_ge k j with hkj | hkj
          · have hmono : taken outs (k + 1) ≤ taken outs j := taken_mono hkj
            omega
          · obtain rfl : j = k := by omega
            rw [taken_succ] at hle
            omega
      · rintro ⟨_, errno, hfail, _⟩
        rw [hlast] at hfail
        cases hfail
  | stopped k hk hpos hlen hlt hzero hlast =>
      constructor
      · rintro ⟨j, errno, hj, hposj, _, hout, htry⟩
        have hzeroj : (outs j).count = 0 := by rw [hout]; rfl
        obtain rfl : j = k := by
          rcases Nat.lt_trichotomy j k with hlt | heq | hgt
          · have := hpos j hlt
            omega
          · exact heq
          · have := hposj k hgt
            omega
        refine ⟨?_, errno, hlast.trans hout, htry⟩
        rw [hlen]
        exact lt_of_lt_of_le hj (le_taken hpos)
      · rintro ⟨hpositive, errno, hfail, htry⟩
        refine ⟨k, errno, ?_, hpos, hlt, hlast.symm.trans hfail, htry⟩
        rcases Nat.eq_zero_or_pos k with rfl | hk
        · simp [hlen, taken] at hpositive
        · exact hk

/-- Returning the total is right. -/
theorem reports_total {sendLen calls : ℕ} (hle : sendLen ≤ buff.length) :
    Reports buff ⟨sendLen, buff.take sendLen, calls⟩ :=
  ⟨by rw [List.length_take, Nat.min_eq_left hle], List.take_append_drop sendLen buff⟩

end CTcpSocket

open CTcpSocket

/-- **When the value returned is right.**  `Send` returns after at most as many calls as there are
bytes.  It returns the number of bytes the kernel accepted, unless an error after which one tries
again comes behind a call that took something and before all is taken. -/
theorem send_reports_iff (outs : ℕ → SendOutcome) (buff : Bytes) (hbuff : buff ≠ []) :
    (send outs buff).calls ≤ buff.length ∧
      (Reports buff (send outs buff) ↔ ¬ Interrupted outs buff.length) := by
  obtain ⟨hends, hacc, hle⟩ := sendLoop_ends outs buff 0 0 []
    (fun j hj => absurd hj (Nat.not_lt_zero j)) rfl (List.length_pos_of_ne_nil hbuff) rfl
  rw [hends.interrupted_iff]
  have hcalls := hends.calls_le
  rw [send]
  rcases hs : sendLoop outs buff 0 0 [] with ⟨sendLen, last, accepted, calls⟩
  rw [hs] at hacc hle hcalls
  dsimp only at hacc hle hcalls ⊢
  subst hacc
  cases last with
  | sent count => exact ⟨hcalls, by simpa using reports_total hle⟩
  | failed errno =>
      by_cases htry : TryAgain errno
      · simp only [if_pos htry]
        refine ⟨hcalls, ?_⟩
        constructor
        · rintro ⟨hvalue, _⟩ ⟨hpos, _⟩
          dsimp only at hvalue
          rw [List.length_take, Nat.min_eq_left hle] at hvalue
          omega
        · intro hno
          obtain rfl : sendLen = 0 := by
            by_contra h0
            exact hno ⟨Nat.pos_of_ne_zero h0, errno, rfl, htry⟩
          exact reports_total hle
      · simp only [if_neg htry]
        exact ⟨hcalls, by simpa [htry] using reports_total hle⟩

/-- A buffer that goes out in two parts. -/
theorem send_reports_iff_parts :
    Reports [1, 2, 3, 4, 5] (send (fun _ => .sent 3) [1, 2, 3, 4, 5]) := by
  refine (send_reports_iff (fun _ => .sent 3) [1, 2, 3, 4, 5] (by decide)).2.2 ?_
  rintro ⟨k, errno, _, _, _, hout, _⟩
  cases hout

/-- Three of five bytes are accepted, and then the call would block. -/
def blockedAfterThree (i : ℕ) : SendOutcome := if i = 0 then .sent 3 else .failed eagain

/-- **`Send` returns 0 although three bytes are out**: a caller who goes on from there sends them
again. -/
theorem blocked_send_reports_nothing :
    send blockedAfterThree [1, 2, 3, 4, 5] = ⟨0, [1, 2, 3], 2⟩ ∧
      ¬ Reports [1, 2, 3, 4, 5] (send blockedAfterThree [1, 2, 3, 4, 5]) := by
  have hloop : sendLoop blockedAfterThree [1, 2, 3, 4, 5] 0 0 [] =
      ⟨3, .failed eagain, [1, 2, 3], 2⟩ := by
    rw [sendLoop, blockedAfterThree, if_pos rfl]
    dsimp only
    rw [if_pos (by decide), sendLoop, blockedAfterThree, if_neg (by decide)]
    rfl
  have hsend : send blockedAfterThree [1, 2, 3, 4, 5] = ⟨0, [1, 2, 3], 2⟩ := by
    rw [send, hloop]
    rfl
  refine ⟨hsend, ?_⟩
  rw [hsend]
  rintro ⟨hvalue, _⟩
  cases hvalue

end WebSocketDemo
