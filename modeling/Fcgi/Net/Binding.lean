import Fcgi.Net.Listener

/-!
# Net — what the listener binds

The calls that `listen()` makes on the way to `bind`, for the options of a network address.

**`listen_binds_asked_iff`**: when these are one `bind` to the address and port asked for, or none
where `listen()` throws.  The socket is always of the family `AF_INET`, and a port keeps two bytes
of the number asked for.  The proof follows `listen()` up to the call that fails: the socket, its
option, the text, and `bind` itself.
-/

namespace Fcgi
open Lib

/-- The call is `bind`. -/
def Syscall.isBind : Syscall → Bool
  | .bind _ _ => true
  | _ => false

/-- The system has made `ip` of the text. -/
def InetPton.Parses (pton : InetPton) (text : List UInt8) : IpBinary → Prop
  | .inAddr bytes => pton.inet (cStr text) = .address bytes
  | .in6Addr bytes => pton.inet6 (cStr text) = .address bytes

namespace SocketListener

/-- The system calls that a call of `listen()` has made. -/
def made (sys : System) (s : SocketListener) : List Syscall := s.sys.calls.drop sys.calls.length

/-- `listen()` has thrown before binding, or has bound the new socket, once, to an address of the
family of its domain with the IP address parsed and the port asked for. -/
def BindsAsked (pton : InetPton) (address : List UInt8) (port : Int) (sys : System)
    (s : Except (Fault Exception) Unit × SocketListener) : Prop :=
  ((∃ e, s.1 = .error (.exc e)) ∧ ∀ c ∈ made sys s.2, c.isBind = false) ∨
  ∃ domain addr ip field, .socket domain ∈ made sys s.2 ∧
    (made sys s.2).filter Syscall.isBind = [.bind (sys.outcome 0) addr] ∧
    addr.saFamily = domain ∧ addr.ip = some ip ∧ pton.Parses address ip ∧
    addr.port = some field ∧ ntohs field = port

section

variable {pton : InetPton} {o : ListenerOptions} {sys : System} {address : List UInt8} {port : Int}
  {hne : address ≠ []}

/-- The calls made, as those beyond the ones made before. -/
theorem made_of_calls {sys' : System} {cs : List Syscall} (h : sys'.calls = sys.calls ++ cs)
    (g : SocketGuard) : made sys ⟨g, o, sys'⟩ = cs := by
  rw [made, h, List.drop_left]

/-- An exception on the way to `bind`. -/
theorem BindsAsked.of_throw {e : Exception} {g : SocketGuard} {sys' : System} {cs : List Syscall}
    (h : sys'.calls = sys.calls ++ cs) (hcs : ∀ c ∈ cs, c.isBind = false) :
    BindsAsked pton address port sys (.error (.exc e), ⟨g, o, sys'⟩) := by
  refine .inl ⟨⟨e, rfl⟩, ?_⟩
  rw [made_of_calls h]
  exact hcs

theorem bindsAsked_of_socket (h : sys.outcome 0 < 0) :
    BindsAsked pton address port sys (listen pton ⟨{}, o, sys⟩) := by
  obtain ⟨sys', cs, hrun, hcalls, hcs⟩ := createBind_invalid pton o h o.endpoint_
  rw [listen_of_createBind_error hrun]
  refine .of_throw hcalls fun c hc => ?_
  rcases List.mem_cons.mp hc with rfl | hc
  · rfl
  · obtain ⟨fd, rfl⟩ := hcs c hc
    rfl

/-- The calls made before the text is looked at. -/
def opened (sys : System) : System :=
  (sys.answered (.socket .inet)).answered (.setsockopt (sys.outcome 0))

/-- The calls before the text is looked at. -/
theorem calls_opened : (opened sys).calls =
    sys.calls ++ [.socket .inet, .setsockopt (sys.outcome 0)] := by
  rw [opened, System.calls_answered, System.calls_answered, List.append_assoc]
  rfl

theorem bindsAsked_of_setsockopt (he : o.endpoint_ = .net address port hne)
    (h : 0 ≤ sys.outcome 0) (hopt : sys.outcome 1 ≠ 0) :
    BindsAsked pton address port sys (listen pton ⟨{}, o, sys⟩) := by
  have hrun := tcpCreateBind_setsockopt pton o h hopt address port
  rw [listen_of_createBind_error (by rw [he]; exact hrun)]
  refine .of_throw calls_opened fun c hc => ?_
  simp only [List.mem_cons, List.not_mem_nil, or_false] at hc
  rcases hc with rfl | rfl <;> rfl

theorem bindsAsked_of_text (he : o.endpoint_ = .net address port hne)
    (h : 0 ≤ sys.outcome 0) (hopt : sys.outcome 1 = 0) {e : Exception}
    (htext : IpAddress.fromText pton address = .error e) :
    BindsAsked pton address port sys (listen pton ⟨{}, o, sys⟩) := by
  have hrun := tcpCreateBind_text pton o h hopt address port
  rw [htext] at hrun
  rw [listen_of_createBind_error (by rw [he]; exact hrun)]
  refine .of_throw calls_opened fun c hc => ?_
  simp only [List.mem_cons, List.not_mem_nil, or_false] at hc
  rcases hc with rfl | rfl <;> rfl

/-- With the text converted, `bind` is called, and then `listen` if that went well. -/
theorem made_of_text (he : o.endpoint_ = .net address port hne)
    (h : 0 ≤ sys.outcome 0) (hopt : sys.outcome 1 = 0) {ip : IpAddress}
    (htext : IpAddress.fromText pton address = .ok ip) :
    ∃ cs, made sys (listen pton ⟨{}, o, sys⟩).2 = [.socket .inet, .setsockopt (sys.outcome 0),
      .bind (sys.outcome 0) (.ofIp ip port)] ++ cs ∧ ∀ c ∈ cs, ∃ fd b, c = .listen fd b := by
  have hrun : createBind pton o.endpoint_ ⟨{}, o, sys⟩ =
      onSys (bindSocket (sys.outcome 0) (.ofIp ip port)) ⟨⟨sys.outcome 0⟩, o, opened sys⟩ := by
    have htcp := tcpCreateBind_text pton o h hopt address port
    rw [htext] at htcp
    rw [he]
    exact htcp
  by_cases hbind : (opened sys).outcome 0 = 0
  · rw [onSys_run (bindSocket_ok hbind _ _) _ o] at hrun
    rw [listen_of_createBind_ok hrun]
    refine ⟨[.listen (sys.outcome 0) o.backlog_], made_of_calls ?_ _,
      fun c hc => ⟨_, _, List.mem_singleton.mp hc⟩⟩
    rw [System.calls_answered, System.calls_answered, calls_opened]
    simp only [List.append_assoc, List.cons_append, List.nil_append]
  · rw [onSys_run (bindSocket_error hbind _ _) _ o] at hrun
    rw [listen_of_createBind_error hrun]
    refine ⟨[], made_of_calls ?_ _, nofun⟩
    rw [System.calls_answered, calls_opened]
    simp only [List.append_assoc, List.cons_append, List.nil_append]

/-- What is bound is what was asked for, or not: it is for the address to say. -/
theorem bindsAsked_iff_of_text (he : o.endpoint_ = .net address port hne)
    (h : 0 ≤ sys.outcome 0) (hopt : sys.outcome 1 = 0) {ip : IpAddress}
    (htext : IpAddress.fromText pton address = .ok ip) :
    BindsAsked pton address port sys (listen pton ⟨{}, o, sys⟩) ↔
      (SocketAddress.ofIp ip port).saFamily = .inet ∧ ∃ bin field,
        (SocketAddress.ofIp ip port).ip = some bin ∧ pton.Parses address bin ∧
        (SocketAddress.ofIp ip port).port = some field ∧ ntohs field = port := by
  obtain ⟨cs, hmade, hcs⟩ := made_of_text he h hopt htext
  -- After `bind` only `listen` is called, so it is the one call of its kind.
  have hfilter : cs.filter Syscall.isBind = [] := by
    refine List.filter_eq_nil_iff.mpr fun c hc => ?_
    obtain ⟨fd, b, rfl⟩ := hcs c hc
    exact Bool.false_ne_true
  have hbinds : (made sys (listen pton ⟨{}, o, sys⟩).2).filter Syscall.isBind =
      [.bind (sys.outcome 0) (.ofIp ip port)] := by
    rw [hmade, List.filter_append, hfilter]
    rfl
  constructor
  · rintro (⟨-, hno⟩ | ⟨domain, addr, bin, field, hsock, hone, hfam, hip, hparse, hport, hback⟩)
    · have := hno (.bind (sys.outcome 0) (.ofIp ip port)) (by
        rw [hmade]
        exact List.mem_append_left _ (by simp))
      exact absurd this (by simp [Syscall.isBind])
    · rw [hbinds] at hone
      simp only [List.cons.injEq, Syscall.bind.injEq, true_and, and_true] at hone
      subst hone
      have hdomain : domain = .inet := by
        rw [hmade] at hsock
        rcases List.mem_append.mp hsock with hin | hin
        · simpa using hin
        · obtain ⟨fd, b, e⟩ := hcs _ hin
          cases e
      exact ⟨hfam.trans hdomain, bin, field, hip, hparse, hport, hback⟩
  · rintro ⟨hfam, bin, field, hip, hparse, hport, hback⟩
    refine .inr ⟨.inet, _, bin, field, ?_, hbinds, hfam, hip, hparse, hport, hback⟩
    rw [hmade]
    exact List.mem_append_left _ List.mem_cons_self

end

/-- **What `listen()` binds.**  For the options that the constructor accepts, `listen()` throws
before binding or binds what was asked for if and only if there is no socket, its options cannot
be set, the conversion of the text fails, or the text is that of an IPv4 address and the port is
one of 16 bits. -/
theorem listen_binds_asked_iff (pton : InetPton) {address : List UInt8} {port backlog : Int}
    {options : ListenerOptions} (h : ListenerOptions.ofAddress address port backlog = .ok options)
    (sys : System) :
    BindsAsked pton address port sys (listen pton ⟨{}, options, sys⟩) ↔
      sys.outcome 0 < 0 ∨ sys.outcome 1 ≠ 0 ∨
      (∃ e, IpAddress.fromText pton address = .error e) ∨
      (∃ bytes, pton.inet (cStr address) = .address bytes) ∧ port < 65536 := by
  obtain ⟨hpos, -, hne, he⟩ := ListenerOptions.ofAddress_ok h
  by_cases hfd : sys.outcome 0 < 0
  · exact iff_of_true (bindsAsked_of_socket hfd) (.inl hfd)
  by_cases hopt : sys.outcome 1 ≠ 0
  · exact iff_of_true (bindsAsked_of_setsockopt he (Int.not_lt.mp hfd) hopt) (.inr (.inl hopt))
  rw [not_not] at hopt
  cases htext : IpAddress.fromText pton address with
  | error e =>
      exact iff_of_true (bindsAsked_of_text he (Int.not_lt.mp hfd) hopt htext)
        (.inr (.inr (.inl ⟨e, rfl⟩)))
  | ok ip =>
      rw [bindsAsked_iff_of_text he (Int.not_lt.mp hfd) hopt htext]
      simp only [hfd, hopt, ne_eq, not_true_eq_false, reduceCtorEq, exists_false, false_or]
      rw [IpAddress.fromText] at htext
      cases h4 : pton.inet (cStr address) with
      | error => rw [h4] at htext; cases htext
      | address bytes =>
          rw [h4] at htext
          cases htext
          have hback := ntohs_htons_eq_iff hpos
          constructor
          · rintro ⟨-, bin, field, -, -, hport, hread⟩
            cases hport
            exact ⟨⟨bytes, rfl⟩, hback.mp hread⟩
          · rintro ⟨-, hlt⟩
            exact ⟨rfl, .inAddr bytes, htons port, rfl, h4, rfl, hback.mpr hlt⟩
      | invalid =>
          -- what is bound is an address of another family, or of none
          rw [h4] at htext
          refine iff_of_false (fun hb => ?_) fun hb => by
            obtain ⟨⟨bytes, e⟩, -⟩ := hb
            cases e
          cases h6 : pton.inet6 (cStr address) with
          | error => simp only [h6] at htext; cases htext
          | address bytes => simp only [h6] at htext; cases htext; cases hb.1
          | invalid => simp only [h6] at htext; cases htext; cases hb.1

/-- Where the system refuses nothing, port 9000 of the loopback address is bound. -/
theorem listen_binds_asked_loopback : ∃ options,
    ListenerOptions.ofAddress (bytesOf "127.0.0.1") 9000 5 = .ok options ∧
      BindsAsked .loopback (bytesOf "127.0.0.1") 9000 ⟨[3, 0, 0, 0], []⟩
        (listen .loopback ⟨{}, options, ⟨[3, 0, 0, 0], []⟩⟩) := by
  have hoptions : ∃ options, ListenerOptions.ofAddress (bytesOf "127.0.0.1") 9000 5 =
      .ok options := ⟨_, rfl⟩
  obtain ⟨options, h⟩ := hoptions
  refine ⟨options, h, (listen_binds_asked_iff .loopback h _).mpr (.inr (.inr (.inr ?_)))⟩
  exact ⟨⟨#v[127, 0, 0, 1], by decide +kernel⟩, by decide⟩

/-- Port 65616 is accepted by the constructor, and port 80 is bound. -/
theorem listen_binds_other_port : ¬ ∀ (pton : InetPton) (address : List UInt8) (port backlog : Int)
    (options : ListenerOptions), ListenerOptions.ofAddress address port backlog = .ok options →
    ∀ sys, BindsAsked pton address port sys (listen pton ⟨{}, options, sys⟩) := by
  intro hall
  have hoptions : ∃ options, ListenerOptions.ofAddress (bytesOf "127.0.0.1") 65616 5 =
      .ok options := ⟨_, rfl⟩
  obtain ⟨options, h⟩ := hoptions
  have hbinds := hall .loopback _ _ _ options h ⟨[3, 0, 0, 0], []⟩
  obtain ⟨-, -, hne, he⟩ := ListenerOptions.ofAddress_ok h
  have htext : IpAddress.fromText .loopback (bytesOf "127.0.0.1") =
      .ok ⟨true, .inAddr #v[127, 0, 0, 1]⟩ := by decide +kernel
  obtain ⟨-, bin, field, -, -, hport, hback⟩ :=
    (bindsAsked_iff_of_text he (by decide) (by decide) htext).mp hbinds
  cases hport
  exact absurd hback (by decide +kernel)

end SocketListener

end Fcgi
