import Mathlib.Data.List.Induction
import Fcgi.Net.Listener

/-!
# Net — when the listener listens

Runs of the four calls of a listener, whatever the system answers.  What the caller saw of a
run says whether the listener should be listening; `isListening` says it is when it has a socket.

**`listening_iff`**: the two agree after every run if no `listen()` has failed behind the making of
its socket.  A failure there leaves the socket in the listener.  `exec_keeps` and `isListening_exec`
say what each call does with the socket and with what the caller saw; the run is an induction on the
calls.
-/

namespace Fcgi
open Lib

/-- The calls of the interface. -/
inductive ListenerCall where
  | listen
  | wait (timeout : Int)
  | accept
  | close
  deriving DecidableEq, Repr

/-- What the caller saw of a call: whether it returned, and whether it asked the system for
anything. -/
structure CallRecord where
  call : ListenerCall
  returned : Bool
  worked : Bool
  deriving DecidableEq, Repr

/-- Whether the last `listen()` that did any work, the records being the latest first, returned,
and no `close()` has since. -/
def shouldListen : List CallRecord → Bool
  | [] => false
  | r :: rs =>
    if r.call = .listen ∧ r.worked = true then r.returned
    else if r.call = .close ∧ r.returned = true then false
    else shouldListen rs

namespace SocketListener

/-- Makes the call. -/
def exec (pton : InetPton) : ListenerCall → Prog SocketListener Exception Unit
  | .listen => listen pton
  | .wait timeout => do
    let _ ← wait timeout
    pure ()
  | .accept => do
    let _ ← accept
    pure ()
  | .close => close

/-- The record of a call made on `l`. -/
def record (pton : InetPton) (l : SocketListener) (c : ListenerCall) : CallRecord :=
  { call := c
    returned := (exec pton c l).1.toBool
    worked := (exec pton c l).2.sys.calls ≠ l.sys.calls }

/-- One call after another, whether they return or throw. -/
def run (pton : InetPton) (l : SocketListener) (cs : List ListenerCall) :
    SocketListener × List CallRecord :=
  cs.foldl (fun s c => ((exec pton c s.1).2, record pton s.1 c :: s.2)) (l, [])

/-- Once the system has given it a socket, `listen()` meets no failure. -/
def Starts (pton : InetPton) (l : SocketListener) : Prop :=
  0 ≤ l.sys.outcome 0 → match l.options_.endpoint_ with
    | .net address _ _ => l.sys.outcome 1 = 0 ∧ (IpAddress.fromText pton address).toBool = true ∧
        l.sys.outcome 2 = 0 ∧ l.sys.outcome 3 = 0
    | .uds path _ => (SocketAddress.ofPath path).toBool = true ∧
        l.sys.outcome 1 = 0 ∧ l.sys.outcome 2 = 0

/-- The listener listens exactly when it should, and where it should not the next `listen()` asks
the system for a socket. -/
def ListensAsSeen (pton : InetPton) (s : SocketListener × List CallRecord) : Prop :=
  s.1.isListening = shouldListen s.2 ∧ (shouldListen s.2 = false →
    ∃ cs, (listen pton s.1).2.sys.calls =
      s.1.sys.calls ++ .socket s.1.options_.endpoint_.domain :: cs)

theorem run_append (pton : InetPton) (l : SocketListener) (cs : List ListenerCall)
    (c : ListenerCall) : run pton l (cs ++ [c]) =
      ((exec pton c (run pton l cs).1).2,
        record pton (run pton l cs).1 c :: (run pton l cs).2) := by
  rw [run, List.foldl_append]
  rfl

section Listen

variable {pton : InetPton} {o : ListenerOptions} {sys : System}

/-- A socket has been asked for. -/
def Asked (o : ListenerOptions) (sys sys' : System) : Prop :=
  ∃ cs, sys'.calls = sys.calls ++ .socket o.endpoint_.domain :: cs

/-- A further call has been answered. -/
theorem Asked.answered {sys' : System} (h : Asked o sys sys') (c : Syscall) :
    Asked o sys (sys'.answered c) := by
  obtain ⟨cs, h⟩ := h
  exact ⟨cs ++ [c], by rw [System.calls_answered, h, List.append_assoc]; rfl⟩

theorem Asked.ne {sys' : System} (h : Asked o sys sys') : sys'.calls ≠ sys.calls := by
  obtain ⟨cs, h⟩ := h
  rw [h]
  exact fun e => List.cons_ne_nil _ _ (List.append_right_eq_self.mp e)

variable (o sys) in
/-- The socket is bound, or the address cannot be made, or `bind` fails. -/
theorem bind_cases {α : Type} (x : Except Exception α) (f : α → SocketAddress) (g : SocketGuard) :
    ((x.toBool = true ∧ sys.outcome 0 = 0) ∧ ∃ addr,
      (Prog.ofExcept x >>= fun a => onSys (bindSocket g.socket_ (f a))) ⟨g, o, sys⟩ =
        (.ok (), ⟨g, o, sys.answered (.bind g.socket_ addr)⟩)) ∨
    (¬ (x.toBool = true ∧ sys.outcome 0 = 0) ∧ ∃ e sys', (sys' = sys ∨ ∃ c, sys' = sys.answered c) ∧
      (Prog.ofExcept x >>= fun a => onSys (bindSocket g.socket_ (f a))) ⟨g, o, sys⟩ =
        (.error e, ⟨g, o, sys'⟩)) := by
  cases x with
  | error e => exact .inr ⟨fun h => absurd h.1 Bool.false_ne_true, .exc e, sys, .inl rfl, rfl⟩
  | ok a =>
      rw [Prog.bind_ok (Prog.ofExcept_ok_run _ _)]
      by_cases h : sys.outcome 0 = 0
      · exact .inl ⟨⟨rfl, h⟩, f a, onSys_run (bindSocket_ok h _ _) g o⟩
      · exact .inr ⟨fun h' => h h'.2, _, _, .inr ⟨_, rfl⟩,
          onSys_run (bindSocket_error h _ _) g o⟩

/-- From the text or the path on: how `listen()` ends. -/
theorem listen_of_bind {α : Type} {x : Except Exception α} {f : α → SocketAddress}
    {g : SocketGuard} {sys₁ : System} (hsys : Asked o sys sys₁)
    (h : createBind pton o.endpoint_ ⟨{}, o, sys⟩ =
      (Prog.ofExcept x >>= fun a => onSys (bindSocket g.socket_ (f a))) ⟨g, o, sys₁⟩) :
    ((x.toBool = true ∧ sys₁.outcome 0 = 0 ∧ sys₁.outcome 1 = 0) ∧ ∃ sys', Asked o sys sys' ∧
      listen pton ⟨{}, o, sys⟩ = (.ok (), ⟨g, o, sys'⟩)) ∨
    (¬ (x.toBool = true ∧ sys₁.outcome 0 = 0 ∧ sys₁.outcome 1 = 0) ∧ ∃ e sys', Asked o sys sys' ∧
      listen pton ⟨{}, o, sys⟩ = (.error e, ⟨g, o, sys'⟩)) := by
  rcases bind_cases o sys₁ x f g with ⟨hb, addr, hbind⟩ | ⟨hb, e, sys', hsys', hbind⟩
  · have hl := listen_of_createBind_ok (h.trans hbind)
    rw [System.outcome_answered] at hl
    by_cases hr : sys₁.outcome 1 = 0
    · rw [if_neg (fun hne => hne hr)] at hl
      exact .inl ⟨⟨hb.1, hb.2, hr⟩, _, (hsys.answered _).answered _, hl⟩
    · rw [if_pos hr] at hl
      exact .inr ⟨fun hs => hr hs.2.2, _, _, (hsys.answered _).answered _, hl⟩
  · refine .inr ⟨fun hs => hb ⟨hs.1, hs.2.1⟩, e, sys', ?_,
      listen_of_createBind_error (h.trans hbind)⟩
    rcases hsys' with rfl | ⟨c, rfl⟩
    · exact hsys
    · exact hsys.answered c

variable (pton o) in
/-- How `listen()` ends once the socket is stored: started, or with an exception and the socket
still there. -/
theorem listen_cases (h : 0 ≤ sys.outcome 0) :
    (Starts pton ⟨{}, o, sys⟩ ∧ ∃ sys', Asked o sys sys' ∧
      listen pton ⟨{}, o, sys⟩ = (.ok (), ⟨⟨sys.outcome 0⟩, o, sys'⟩)) ∨
    (¬ Starts pton ⟨{}, o, sys⟩ ∧ ∃ e sys', Asked o sys sys' ∧
      listen pton ⟨{}, o, sys⟩ = (.error e, ⟨⟨sys.outcome 0⟩, o, sys'⟩)) := by
  have hsock : Asked o sys (sys.answered (.socket o.endpoint_.domain)) := ⟨[], rfl⟩
  cases he : o.endpoint_ with
  -- The address is made of the path between `::socket` and `::bind`.
  | uds path hne =>
      have hstarts : Starts pton ⟨{}, o, sys⟩ ↔ (SocketAddress.ofPath path).toBool = true ∧
          sys.outcome 1 = 0 ∧ sys.outcome 2 = 0 := by
        simp only [Starts, he]
        exact ⟨fun hs => hs h, fun hs _ => hs⟩
      have hrun : createBind pton o.endpoint_ ⟨{}, o, sys⟩ =
          (Prog.ofExcept (SocketAddress.ofPath path) >>= fun addr =>
            onSys (bindSocket (sys.outcome 0) addr))
              ⟨⟨sys.outcome 0⟩, o, sys.answered (.socket o.endpoint_.domain)⟩ := by
        rw [he]
        exact udsCreateBind_path h path
      have hends := listen_of_bind (f := id) (g := ⟨sys.outcome 0⟩) hsock hrun
      simp only [System.outcome_answered, Nat.reduceAdd] at hends
      rwa [hstarts]
  | net address port hne =>
      have hstarts : Starts pton ⟨{}, o, sys⟩ ↔ sys.outcome 1 = 0 ∧
          (IpAddress.fromText pton address).toBool = true ∧ sys.outcome 2 = 0 ∧
          sys.outcome 3 = 0 := by
        simp only [Starts, he]
        exact ⟨fun hs => hs h, fun hs _ => hs⟩
      rw [hstarts]
      -- The option is set before the address is read.
      by_cases hopt : sys.outcome 1 = 0
      · have hrun : createBind pton o.endpoint_ ⟨{}, o, sys⟩ =
            (Prog.ofExcept (IpAddress.fromText pton address) >>= fun ip =>
              onSys (bindSocket (sys.outcome 0) (SocketAddress.ofIp ip port)))
                ⟨⟨sys.outcome 0⟩, o, (sys.answered (.socket o.endpoint_.domain)).answered
                  (.setsockopt (sys.outcome 0))⟩ := by
          rw [he]
          exact tcpCreateBind_text _ _ h hopt address port
        have hends := listen_of_bind (f := fun ip => .ofIp ip port) (g := ⟨sys.outcome 0⟩)
          (hsock.answered _) hrun
        simp only [System.outcome_answered, Nat.reduceAdd] at hends
        simpa only [hopt, true_and] using hends
      · have hrun : createBind pton o.endpoint_ ⟨{}, o, sys⟩ =
            (.error (.exc (.net "cannot set SO_REUSEADDR socket option")),
              ⟨⟨sys.outcome 0⟩, o, (sys.answered (.socket o.endpoint_.domain)).answered
                (.setsockopt (sys.outcome 0))⟩) := by
          rw [he]
          exact tcpCreateBind_setsockopt _ _ h hopt address port
        exact .inr ⟨fun hs => hopt hs.1, _, _, hsock.answered _, listen_of_createBind_error hrun⟩

variable (pton o) in
/-- A socket that cannot be created leaves the listener as it was. -/
theorem listen_invalid (h : sys.outcome 0 < 0) : ∃ e sys', Asked o sys sys' ∧
    listen pton ⟨{}, o, sys⟩ = (.error e, ⟨{}, o, sys'⟩) := by
  obtain ⟨sys', cs, hrun, hcalls, -⟩ := createBind_invalid pton o h o.endpoint_
  exact ⟨_, sys', ⟨cs, hcalls⟩, listen_of_createBind_error hrun⟩

/-- `listen()` of a listener without a socket makes calls. -/
theorem listen_asked : Asked o sys (listen pton ⟨{}, o, sys⟩).2.sys := by
  by_cases h : 0 ≤ sys.outcome 0
  · rcases listen_cases pton o h with
      ⟨-, sys', hasked, hrun⟩ | ⟨-, e, sys', hasked, hrun⟩ <;> rw [hrun] <;> exact hasked
  · obtain ⟨e, sys', hasked, hrun⟩ := listen_invalid pton o (Int.not_le.mp h)
    rw [hrun]
    exact hasked

end Listen

/-! ### One call -/

section

variable {pton : InetPton} {l : SocketListener} {rs : List CallRecord}

/-- A listener that is not listening holds no socket. -/
def Owned (l : SocketListener) : Prop := l.isListening = false → l.socket_ = {}

/-- A program of the sockets leaves the listener its socket. -/
theorem onSys_keeps {α : Type} (g : SocketGuard) (m : Prog System Exception α) :
    Keeps (fun l => l.socket_ = g) (onSys m) := by
  intro l hl
  rw [onSys, Prog.zoom]
  rcases m l.sys with ⟨_ | _, sys'⟩ <;> exact hl

variable (pton) in
/-- `wait()` and `accept()` leave the socket alone. -/
theorem exec_keeps (g : SocketGuard) {c : ListenerCall} (h : c ≠ .listen) (h' : c ≠ .close) :
    Keeps (fun l => l.socket_ = g) (exec pton c) := by
  cases c with
  | listen => exact absurd rfl h
  | close => exact absurd rfl h'
  | wait timeout =>
      rw [exec, wait]
      refine (Keeps.get fun l => ?_).bind fun _ => Keeps.pure _
      exact (Keeps.throw _).ite ((Keeps.throw _).ite (onSys_keeps g _))
  | accept =>
      rw [exec, accept]
      refine (Keeps.get fun l => (Keeps.throw _).ite ?_).bind fun _ => Keeps.pure _
      refine (onSys_keeps g _).bind fun _ => Keeps.ite ?_ (Keeps.pure _)
      exact (onSys_keeps g _).bind fun _ => Keeps.throw _

variable (pton l) in
/-- Only `listen()` and `close()` change the socket. -/
theorem exec_socket {c : ListenerCall} (h : c ≠ .listen) (h' : c ≠ .close) :
    (exec pton c l).2.socket_ = l.socket_ := by
  have hk := exec_keeps pton l.socket_ h h' l rfl
  rcases hrun : exec pton c l with ⟨_ | _, l'⟩ <;> rw [hrun] at hk <;> exact hk

/-- `close()` lets the socket go, or fails and keeps it. -/
theorem close_cases (l : SocketListener) :
    (∃ sys', close l = (.ok (), ⟨{}, l.options_, sys'⟩)) ∨
    ∃ e sys', close l = (.error e, ⟨l.socket_, l.options_, sys'⟩) := by
  obtain ⟨g, o, sys⟩ := l
  have hrun : close ⟨g, o, sys⟩ = (onSys g.close >>= fun r => do
      Prog.modify fun l => { l with socket_ := r.2 }
      if r.1 ≠ 0 then Prog.throw (.net "cannot close socket") else pure ()) ⟨g, o, sys⟩ := rfl
  rw [hrun]
  by_cases hg : g.socket_ ≠ invalidSocket
  · have hclose : g.close sys = (.ok (sys.outcome 0, if sys.outcome 0 = 0 then {} else g),
        sys.answered (.close g.socket_)) := by
      rw [SocketGuard.close, if_pos hg, Prog.bind_ok (System.call_run _ _)]
      split <;> rfl
    rw [Prog.bind_ok (onSys_run hclose g o), Prog.bind_ok (Prog.modify_run _ _)]
    by_cases hr : sys.outcome 0 = 0
    · rw [if_neg (fun hne => hne hr), if_pos hr]
      exact .inl ⟨_, rfl⟩
    · rw [if_pos hr, if_neg hr]
      exact .inr ⟨_, _, rfl⟩
  · have hclose : g.close sys = (.ok (0, g), sys) := by
      rw [SocketGuard.close, if_neg hg]
      rfl
    obtain ⟨socket⟩ := g
    obtain rfl : socket = invalidSocket := not_not.mp hg
    rw [Prog.bind_ok (onSys_run hclose _ o), Prog.bind_ok (Prog.modify_run _ _)]
    exact .inl ⟨_, rfl⟩

theorem Owned.exec (h : Owned l) (c : ListenerCall) : Owned (exec pton c l).2 := by
  by_cases hl : c = .listen
  · subst hl
    cases hlis : l.isListening with
    | true =>
        rw [SocketListener.exec, listen_listening hlis]
        exact h
    | false =>
        obtain ⟨g, o, sys⟩ := l
        obtain rfl : g = {} := h hlis
        rw [SocketListener.exec]
        by_cases hfd : 0 ≤ sys.outcome 0
        · have hvalid : isSocketValid (sys.outcome 0) = true := decide_eq_true hfd
          rcases listen_cases pton o hfd with
            ⟨-, sys', -, hrun⟩ | ⟨-, e, sys', -, hrun⟩ <;>
          · rw [hrun]
            exact fun hno => absurd hvalid (Bool.eq_false_iff.mp hno)
        · obtain ⟨e, sys', -, hrun⟩ := listen_invalid pton o (Int.not_le.mp hfd)
          rw [hrun]
          exact fun _ => rfl
  · by_cases hc : c = .close
    · subst hc
      rw [SocketListener.exec]
      rcases close_cases l with ⟨sys', hrun⟩ | ⟨e, sys', hrun⟩ <;> rw [hrun]
      · exact fun _ => rfl
      · exact h
    · have hs := exec_socket pton l hl hc
      intro hno
      rw [hs]
      exact h (by rwa [isListening, hs] at hno)

/-! ### Runs -/

/-- A call after which the listener listens exactly when it should, as it did before. -/
theorem isListening_exec (howned : Owned l) (h : l.isListening = shouldListen rs)
    {c : ListenerCall} (hstarts : c = .listen → l.isListening = false → Starts pton l) :
    (exec pton c l).2.isListening = shouldListen (record pton l c :: rs) := by
  -- `listen()` and `close()` decide; every other call leaves the socket as it is.
  by_cases hl : c = .listen
  · subst hl
    cases hlis : l.isListening with
    | true =>
        have hrun : exec pton .listen l = (.ok (), l) := listen_listening hlis
        have hrec : record pton l .listen = ⟨.listen, true, false⟩ := by
          simp only [record, hrun, ne_eq, not_true_eq_false, decide_false]
          rfl
        rw [hrun, hrec, h]
        rfl
    | false =>
        specialize hstarts rfl hlis
        obtain ⟨g, o, sys⟩ := l
        obtain rfl : g = {} := howned hlis
        -- `socket()` gave a descriptor, so the later steps decide; or it failed.
        by_cases hfd : 0 ≤ sys.outcome 0
        · rcases listen_cases pton o hfd with
            ⟨-, sys', hasked, hrun⟩ | ⟨hno, -⟩
          · have hrec : record pton ⟨{}, o, sys⟩ .listen = ⟨.listen, true, true⟩ := by
              simp only [record, exec, hrun, ne_eq, hasked.ne, not_false_eq_true, decide_true]
              rfl
            rw [hrec, exec, hrun]
            exact decide_eq_true hfd
          · exact absurd hstarts hno
        · obtain ⟨e, sys', hasked, hrun⟩ :=
            listen_invalid pton o (Int.not_le.mp hfd)
          have hrec : record pton ⟨{}, o, sys⟩ .listen = ⟨.listen, false, true⟩ := by
            simp only [record, exec, hrun, ne_eq, hasked.ne, not_false_eq_true, decide_true]
            rfl
          rw [hrec, exec, hrun]
          rfl
  · by_cases hc : c = .close
    · subst hc
      rcases close_cases l with ⟨sys', hrun⟩ | ⟨e, sys', hrun⟩
      · simp only [shouldListen, record, exec, hrun, reduceCtorEq, false_and, if_false]
        rfl
      · simp only [shouldListen, record, exec, hrun, reduceCtorEq, false_and, if_false, ← h]
        rfl
    · have hskip : shouldListen (record pton l c :: rs) = shouldListen rs := by
        simp only [shouldListen, record, hl, hc, false_and, if_false]
      rw [hskip, ← h, isListening, isListening, exec_socket _ _ hl hc]

variable (rs) in
/-- A `listen()` that fails once it has a socket leaves a listener that says it is listening. -/
theorem isListening_failed (howned : Owned l) (hlis : l.isListening = false)
    (hno : ¬ Starts pton l) : (exec pton .listen l).2.isListening = true ∧
      shouldListen (record pton l .listen :: rs) = false := by
  obtain ⟨g, o, sys⟩ := l
  obtain rfl : g = {} := howned hlis
  have hfd : 0 ≤ sys.outcome 0 := by
    by_contra hneg
    exact hno fun hpos => absurd hpos hneg
  rcases listen_cases pton o hfd with ⟨hs, -⟩ | ⟨-, e, sys', hasked, hrun⟩
  · exact absurd hs hno
  · have hrec : record pton ⟨{}, o, sys⟩ .listen = ⟨.listen, false, true⟩ := by
      simp only [record, exec, hrun, ne_eq, hasked.ne, not_false_eq_true, decide_true]
      rfl
    rw [hrec, exec, hrun]
    exact ⟨decide_eq_true hfd, rfl⟩

theorem run_owned (howned : Owned l) (cs : List ListenerCall) : Owned (run pton l cs).1 := by
  induction cs using List.reverseRecOn with
  | nil => exact howned
  | append_singleton cs c ih =>
      rw [run_append]
      exact ih.exec c

/-- Where the listener says rightly that it is not listening, `listen()` tries again. -/
theorem ListensAsSeen.of_eq (howned : Owned l) (h : l.isListening = shouldListen rs) :
    ListensAsSeen pton (l, rs) := by
  refine ⟨h, fun hno => ?_⟩
  obtain ⟨g, o, sys⟩ := l
  obtain rfl : g = {} := howned (h.trans hno)
  exact listen_asked

end

/-- **When the listener listens.**  In every state that a run of calls reaches, whatever the
system answers, the listener listens exactly when the last `listen()` that did any work returned
and no `close()` has since, if and only if no `listen()` of the run failed with its socket
already stored. -/
theorem listening_iff (pton : InetPton) (options : ListenerOptions) (sys : System)
    (cs : List ListenerCall) :
    (∀ done, done <+: cs → ListensAsSeen pton (run pton ⟨{}, options, sys⟩ done)) ↔
      ∀ done, done ++ [.listen] <+: cs → (run pton ⟨{}, options, sys⟩ done).1.isListening = false →
        Starts pton (run pton ⟨{}, options, sys⟩ done).1 := by
  have howned : ∀ done, Owned (run pton ⟨{}, options, sys⟩ done).1 := run_owned fun _ => rfl
  constructor
  · intro h done hdone hlis
    by_contra hno
    have hseen := h _ hdone
    obtain ⟨htrue, hfalse⟩ := isListening_failed
      (run pton ⟨{}, options, sys⟩ done).2 (howned done) hlis hno
    rw [run_append] at hseen
    rw [hseen.1, hfalse] at htrue
    exact absurd htrue Bool.false_ne_true
  · intro h done
    induction done using List.reverseRecOn with
    | nil => exact fun _ => .of_eq (fun _ => rfl) rfl
    | append_singleton done c ih =>
        intro hdone
        have hseen := ih ((List.prefix_append _ _).trans hdone)
        have hagree := isListening_exec (howned done) hseen.1 (c := c) fun hc => h done (hc ▸ hdone)
        have howned' := howned (done ++ [c])
        rw [run_append] at howned' ⊢
        exact .of_eq howned' hagree

/-- The port is taken: `bind` fails, and the listener goes on to say that it is listening. -/
theorem listening_after_failure : ¬ ∀ (pton : InetPton) (options : ListenerOptions) (sys : System)
    (cs : List ListenerCall), ListensAsSeen pton (run pton ⟨{}, options, sys⟩ cs) := by
  intro h
  have hseen := h .loopback ⟨.net (bytesOf "127.0.0.1") 9000 (by decide), 5, by decide⟩
    ⟨[3, 0, -1], []⟩ [.listen]
  exact absurd hseen.1 (by decide +kernel)

end SocketListener

end Fcgi
