import EzRouter.Router.Startup

/-!
# Socket files

`ipc_server_init` and `port_open_ipc_server` remove the file that an earlier
run has left and bind a new socket to its name.  The name is cut to what
`sun_path` holds, while the path to remove is not; and an empty path is no
file, but binds a name that vanishes with the process.  Here `socket` and
`listen` succeed, and whether a file may be created at all is up to the
directory that it is in.  Two names are the same file when they are the same
text (no links, no doubled slashes), and nobody but the router changes the
directories between its runs.
-/

namespace EzRouter

open EzRouter.Foundation

/-- A bound name: the opener that listens there, or a file left behind. -/
inductive SocketFile where
  | stale
  | listener (i : Nat)
  deriving DecidableEq, Repr

abbrev SocketNames := CStr → Option SocketFile

/-- `strncpy` into the 108 bytes of `sun_path`. -/
def sunPath (path : CStr) : CStr := path.take 107

def unlinkPath (names : SocketNames) (path : CStr) : SocketNames :=
  if path = .empty then names else Function.update names path none

def openSocket (refuses : CStr → Bool) (names : SocketNames) (i : Nat)
    (path : CStr) : Bool × SocketNames :=
  let unlinked := unlinkPath names path
  if refuses (sunPath path) || (unlinked (sunPath path)).isSome then
    (false, unlinked)
  else (true, Function.update unlinked (sunPath path) (some (.listener i)))

def openSockets (refuses : CStr → Bool) :
    List CStr → Nat → SocketNames → List Bool × SocketNames
  | [], _, names => ([], names)
  | path :: paths, i, names =>
      let opened := openSocket refuses names i path
      let rest := openSockets refuses paths (i + 1) opened.2
      (opened.1 :: rest.1, rest.2)

/-- Nothing removes the files when the process ends. -/
def exitProcess (names : SocketNames) : SocketNames := fun name =>
  if name = .empty then none else (names name).map fun _ => .stale

def ipcPorts (c : Config) : List PortDef :=
  c.ports.filter (·.type = .ipcServer)

def ipcPath (p : PortDef) : CStr :=
  match p.cfg with
  | .ipc conf => conf.path.str
  | _ => .empty

def ctrlPath : CStr := .lit "/run/ez_router/ez_router.sock"

/-- `main` opens the socket of the control plane before those of the ports. -/
def socketPaths (c : Config) : List CStr :=
  ctrlPath :: (ipcPorts c).map ipcPath

def afterRuns (refuses : CStr → Bool) (history : List Config)
    (names : SocketNames) : SocketNames :=
  history.foldl (fun names c =>
    exitProcess (openSockets refuses (socketPaths c) 0 names).2) names

def Fits (path : CStr) : Prop := path ≠ .empty ∧ path.length ≤ 107

variable {refuses : CStr → Bool} {s : SocketNames} {path name : CStr}
  {paths : List CStr} {i n : Nat}

theorem sunPath_of_fits (h : Fits path) : sunPath path = path :=
  CStr.take_eq_self_iff.2 h.2

@[simp] theorem sunPath_sunPath (path : CStr) :
    sunPath (sunPath path) = sunPath path :=
  CStr.take_eq_self_iff.2 (List.length_take_le _ _)

theorem sunPath_eq_empty_iff : sunPath path = .empty ↔ path = .empty := by
  rw [CStr.ext_iff, CStr.ext_iff]
  simp [sunPath, CStr.empty]

theorem ne_of_sunPath_ne (hname : sunPath name = name)
    (h : sunPath path ≠ name) : name ≠ path := by
  rintro rfl
  exact h hname

theorem unlinkPath_of_ne (h : name ≠ path) :
    unlinkPath s path name = s name := by
  unfold unlinkPath
  split_ifs
  · rfl
  · exact Function.update_of_ne h _ _

theorem unlinkPath_of_fits (h : Fits path) :
    unlinkPath s path path = none := by
  rw [unlinkPath, if_neg h.1, Function.update_self]

theorem unlinkPath_of_not_fits (h : ¬ Fits path) :
    unlinkPath s path (sunPath path) = s (sunPath path) := by
  by_cases hempty : path = .empty
  · rw [unlinkPath, if_pos hempty]
  · have hcut : sunPath path ≠ path := fun heq =>
      h ⟨hempty, CStr.take_eq_self_iff.1 heq⟩
    exact unlinkPath_of_ne hcut

theorem unlinkPath_sunPath_eq_none :
    unlinkPath s path (sunPath path) = none ↔
      Fits path ∨ s (sunPath path) = none := by
  by_cases hfits : Fits path
  · rw [sunPath_of_fits hfits]
    simp [hfits, unlinkPath_of_fits hfits]
  · rw [unlinkPath_of_not_fits hfits]
    simp [hfits]

theorem openSocket_opens_iff :
    (openSocket refuses s i path).1 = true ↔
      refuses (sunPath path) = false ∧
        (Fits path ∨ s (sunPath path) = none) := by
  rw [← unlinkPath_sunPath_eq_none]
  simp only [openSocket]
  cases hrefuses : refuses (sunPath path) <;>
    cases hname : unlinkPath s path (sunPath path) <;> simp

theorem openSocket_of_ne (hname : sunPath name = name)
    (h : sunPath path ≠ name) :
    (openSocket refuses s i path).2 name = s name := by
  have hunlink := unlinkPath_of_ne (s := s) (ne_of_sunPath_ne hname h)
  simp only [openSocket]
  split_ifs
  · exact hunlink
  · exact (Function.update_of_ne (Ne.symm h) _ _).trans hunlink

theorem openSocket_isSome (hrefuses : refuses (sunPath path) = false) :
    ((openSocket refuses s i path).2 (sunPath path)).isSome := by
  simp only [openSocket, hrefuses, Bool.false_or]
  split_ifs with hbound
  · exact hbound
  · simp

theorem openSocket_eq_none_iff (hname : sunPath name = name)
    (hrefuses : refuses name = false) :
    (openSocket refuses s i path).2 name = none ↔
      s name = none ∧ sunPath path ≠ name := by
  by_cases h : sunPath path = name
  · subst h
    have hsome := openSocket_isSome (s := s) (i := i) hrefuses
    rw [Option.isSome_iff_ne_none] at hsome
    simp [hsome]
  · rw [openSocket_of_ne hname h]
    simp [h]

theorem openSockets_eq_none_iff (hname : sunPath name = name)
    (hrefuses : refuses name = false) :
    (openSockets refuses paths n s).2 name = none ↔
      s name = none ∧ ∀ path ∈ paths, sunPath path ≠ name := by
  induction paths generalizing n s with
  | nil => simp [openSockets]
  | cons path paths ih =>
      simp only [openSockets, ih, openSocket_eq_none_iff hname hrefuses,
        List.forall_mem_cons, and_assoc]

theorem openSockets_opens_iff (hpath : paths[i]? = some path) :
    (openSockets refuses paths n s).1[i]? = some true ↔
      refuses (sunPath path) = false ∧ (Fits path ∨
        s (sunPath path) = none ∧
          ∀ earlier ∈ paths.take i, sunPath earlier ≠ sunPath path) := by
  induction paths generalizing i n s with
  | nil => simp at hpath
  | cons head paths ih =>
      cases i with
      | zero =>
          obtain rfl : head = path := by simpa using hpath
          simp only [openSockets, List.getElem?_cons_zero, Option.some.injEq,
            openSocket_opens_iff, List.take_zero, List.not_mem_nil,
            false_implies, implies_true, and_true]
      | succ i =>
          have htail : paths[i]? = some path := by simpa using hpath
          simp only [openSockets, List.getElem?_cons_succ, ih htail]
          refine and_congr_right fun hrefuses => or_congr_right ?_
          rw [openSocket_eq_none_iff (sunPath_sunPath path) hrefuses,
            List.take_succ_cons, List.forall_mem_cons, and_assoc]

/-! ## Restarts -/

theorem exitProcess_eq_none_iff (hname : name ≠ .empty) :
    exitProcess s name = none ↔ s name = none := by
  simp [exitProcess, hname]

theorem afterRuns_eq_none_iff {history : List Config} (hempty : name ≠ .empty)
    (hname : sunPath name = name) (hrefuses : refuses name = false) :
    afterRuns refuses history s name = none ↔ s name = none ∧
      ∀ c ∈ history, ∀ path ∈ socketPaths c, sunPath path ≠ name := by
  induction history generalizing s with
  | nil => simp [afterRuns]
  | cons c history ih =>
      rw [afterRuns, List.foldl_cons, ← afterRuns, ih,
        exitProcess_eq_none_iff hempty,
        openSockets_eq_none_iff hname hrefuses, List.forall_mem_cons,
        and_assoc]

theorem afterRuns_empty {history : List Config} (h : history ≠ []) :
    afterRuns refuses history s .empty = none := by
  rw [← List.dropLast_concat_getLast h, afterRuns, List.foldl_append]
  simp [exitProcess]

theorem restart_opens_iff {history : List Config} {c : Config}
    (hc : c ∈ history) (hpath : (socketPaths c)[i]? = some path) :
    (openSockets refuses (socketPaths c) 0
        (afterRuns refuses history s)).1[i]? = some true ↔
      refuses (sunPath path) = false ∧ (Fits path ∨
        path = .empty ∧ .empty ∉ (socketPaths c).take i) := by
  rw [openSockets_opens_iff hpath]
  refine and_congr_right fun hrefuses => or_congr_right ?_
  by_cases hempty : path = .empty
  · subst hempty
    have hsun : sunPath .empty = .empty := sunPath_eq_empty_iff.2 rfl
    rw [hsun, afterRuns_empty (List.ne_nil_of_mem hc)]
    simp only [true_and, Ne, sunPath_eq_empty_iff]
    exact ⟨fun h hmem => h _ hmem rfl, fun h p hp heq => h (heq ▸ hp)⟩
  · -- The name was bound in the run before and is bound ever since.
    have hcut : sunPath path ≠ .empty := mt sunPath_eq_empty_iff.1 hempty
    rw [afterRuns_eq_none_iff hcut (sunPath_sunPath path) hrefuses]
    have hmem := List.mem_of_getElem? hpath
    refine iff_of_false ?_ fun h => hempty h.1
    rintro ⟨⟨-, hfree⟩, -⟩
    exact hfree c hc path hmem rfl

def ipcCalls (fd : Int) (bound : Bool) : OpenCalls :=
  ⟨some fd, true, true, bound, true⟩

theorem portOpenSingle_ipcCalls {p : PortDef} (htype : p.type = .ipcServer)
    {fd : Int} (hfd : 0 ≤ fd) (bound : Bool) :
    0 ≤ (portOpenSingle p (ipcCalls fd bound)).1 ↔ bound = true := by
  cases bound <;>
    simp [portOpenSingle, portOpenIpcServer, htype, ipcCalls, hfd]

def bindsPort (refuses : CStr → Bool) (c : Config) (s : SocketNames)
    (k : Nat) : Bool :=
  (openSockets refuses (socketPaths c) 0 s).1[k + 1]?.getD false

theorem socketPaths_port {c : Config} {k : Nat} {p : PortDef}
    (hport : (ipcPorts c)[k]? = some p) :
    (socketPaths c)[k + 1]? = some (ipcPath p) := by
  simp [socketPaths, hport]

theorem length_openSockets :
    (openSockets refuses paths n s).1.length = paths.length := by
  induction paths generalizing n s with
  | nil => rfl
  | cons path paths ih => simp [openSockets, ih]

theorem bindsPort_iff {c : Config} {k : Nat} {p : PortDef}
    (hport : (ipcPorts c)[k]? = some p) :
    bindsPort refuses c s k = true ↔
      (openSockets refuses (socketPaths c) 0 s).1[k + 1]? =
        some true := by
  have hlt : k + 1 < (openSockets refuses (socketPaths c) 0 s).1.length := by
    rw [length_openSockets]
    exact (List.getElem?_eq_some_iff.1 (socketPaths_port hport)).1
  rw [bindsPort, List.getElem?_eq_getElem hlt]
  simp

/--
A configuration that the daemon has run with before: whatever it ran with in
between, an IPC port opens again exactly when its path fits into `sun_path`,
or is empty and the first empty one.
-/
theorem ipc_port_reopens_iff {history : List Config} {c : Config}
    (hc : c ∈ history) {k : Nat} {p : PortDef}
    (hport : (ipcPorts c)[k]? = some p) {fd : Int} (hfd : 0 ≤ fd) :
    0 ≤ (portOpenSingle p (ipcCalls fd (bindsPort refuses c
        (afterRuns refuses history s) k))).1 ↔
      refuses (sunPath (ipcPath p)) = false ∧ (Fits (ipcPath p) ∨
        ipcPath p = .empty ∧
          ∀ earlier ∈ (ipcPorts c).take k, ipcPath earlier ≠ .empty) := by
  have hmem : p ∈ ipcPorts c := List.mem_of_getElem? hport
  have htype : p.type = .ipcServer := by
    simpa using (List.mem_filter.1 hmem).2
  have hctrl : CStr.empty ≠ ctrlPath := by decide
  rw [portOpenSingle_ipcCalls htype hfd, bindsPort_iff hport,
    restart_opens_iff hc (socketPaths_port hport)]
  refine and_congr_right fun _ => or_congr_right (and_congr_right fun _ => ?_)
  simp [socketPaths, ← List.map_take, hctrl]

def hostPort : PortDef where
  name := .ofStr 32 (.lit "HOST")
  type := .ipcServer
  fd := 0
  useFrame := false
  cfg := .ipc ⟨.ofStr 128 (.lit "/tmp/host.sock")⟩

def hostConfig : Config := ⟨[hostPort, hostPort], [], []⟩

theorem fits_hostPort : Fits (ipcPath hostPort) := by
  unfold Fits
  decide +kernel

theorem ipc_port_reopens_iff_host :
    0 ≤ (portOpenSingle hostPort (ipcCalls 5 (bindsPort (fun _ => false)
      hostConfig (afterRuns (fun _ => false) [hostConfig] fun _ => none)
      0))).1 :=
  (ipc_port_reopens_iff (List.mem_singleton.2 rfl) rfl (by decide)).2
    ⟨rfl, .inl fits_hostPort⟩

/-! ## Who is reached -/

theorem openSockets_append (refuses : CStr → Bool) (paths more : List CStr)
    (n : Nat) (s : SocketNames) :
    (openSockets refuses (paths ++ more) n s).2 =
      (openSockets refuses more (n + paths.length)
        (openSockets refuses paths n s).2).2 := by
  induction paths generalizing n s with
  | nil => rfl
  | cons path paths ih =>
      rw [List.cons_append, openSockets, ih, List.length_cons,
        show n + 1 + paths.length = n + (paths.length + 1) by omega]
      rfl

theorem openSocket_of_fits (hfits : Fits path)
    (hrefuses : refuses path = false) :
    (openSocket refuses s i path).2 path = some (.listener i) := by
  have hfree := unlinkPath_of_fits (s := s) hfits
  simp [openSocket, sunPath_of_fits hfits, hrefuses, hfree]

theorem openSocket_taken (hname : sunPath name = name) (hne : path ≠ name)
    (htaken : (s name).isSome) :
    (openSocket refuses s i path).2 name = s name := by
  by_cases h : sunPath path = name
  · have hunlink := unlinkPath_of_ne (s := s) hne.symm
    have hbound : (unlinkPath s path (sunPath path)).isSome := by
      rw [h, hunlink]
      exact htaken
    simp [openSocket, hbound, hunlink]
  · exact openSocket_of_ne hname h

theorem openSockets_taken (hname : sunPath name = name)
    (hne : ∀ path ∈ paths, path ≠ name) (htaken : (s name).isSome) :
    (openSockets refuses paths n s).2 name = s name := by
  induction paths generalizing n s with
  | nil => rfl
  | cons path paths ih =>
      have hhead : (openSocket refuses s n path).2 name = s name :=
        openSocket_taken hname (hne path List.mem_cons_self) htaken
      have htail := ih (n := n + 1)
        (s := (openSocket refuses s n path).2)
        (fun p hp => hne p (List.mem_cons_of_mem _ hp)) (by rwa [hhead])
      rw [openSockets, htail, hhead]

theorem listener_of_last {before after : List CStr} (hfits : Fits path)
    (hrefuses : refuses path = false) (hlast : path ∉ after) :
    (openSockets refuses (before ++ path :: after) n s).2 path =
      some (.listener (n + before.length)) := by
  have hbound := openSocket_of_fits (i := n + before.length)
    (s := (openSockets refuses before n s).2) hfits hrefuses
  rw [openSockets_append, openSockets, openSockets_taken (sunPath_of_fits hfits)
    (fun p hp heq => hlast (heq ▸ hp)) (by rw [hbound]; rfl), hbound]

theorem exists_last_split {paths : List CStr} (h : path ∈ paths) :
    ∃ before after, paths = before ++ path :: after ∧ path ∉ after := by
  rcases List.eq_append_cons_of_mem (List.mem_reverse.2 h) with
    ⟨after, before, hsplit, hnot⟩
  refine ⟨before.reverse, after.reverse, ?_, by simpa using hnot⟩
  rw [← List.reverse_reverse paths, hsplit]
  simp

/--
A client that connects to a path is served by the opener of that path that
came last: an earlier one, the control plane among them, keeps its descriptor
but is not reached any more.
-/
theorem reached_iff_last {c : Config} (hpath : (socketPaths c)[i]? = some path)
    (hfits : Fits path) (hrefuses : refuses path = false) :
    (openSockets refuses (socketPaths c) 0 s).2 path =
        some (.listener i) ↔
      path ∉ (socketPaths c).drop (i + 1) := by
  obtain ⟨hlt, hget⟩ := List.getElem?_eq_some_iff.1 hpath
  have hsplit : socketPaths c =
      (socketPaths c).take i ++ path :: (socketPaths c).drop (i + 1) := by
    rw [← hget, ← List.drop_eq_getElem_cons hlt, List.take_append_drop]
  have hbefore : ((socketPaths c).take i).length = i := by
    rw [List.length_take]
    omega
  constructor
  · intro hreached hlater
    rcases exists_last_split hlater with ⟨between, after, htail, hlast⟩
    rw [hsplit, htail, ← List.cons_append, ← List.append_assoc,
      listener_of_last hfits hrefuses hlast] at hreached
    have hindex := SocketFile.listener.inj (Option.some.inj hreached)
    simp only [List.length_append, List.length_cons, hbefore] at hindex
    omega
  · intro hlast
    have hlistener : (openSockets refuses ((socketPaths c).take i ++
        path :: (socketPaths c).drop (i + 1)) 0 s).2 path =
        some (.listener (0 + ((socketPaths c).take i).length)) :=
      listener_of_last hfits hrefuses hlast
    rwa [← hsplit, hbefore, Nat.zero_add] at hlistener

theorem reached_iff_last_host :
    (openSockets (fun _ => false) (socketPaths hostConfig) 0 fun _ => none).2
        (ipcPath hostPort) ≠ some (.listener 1) ∧
      (openSockets (fun _ => false) (socketPaths hostConfig) 0 fun _ => none).2
        (ipcPath hostPort) = some (.listener 2) := by
  constructor
  · intro hreached
    exact (reached_iff_last rfl fits_hostPort rfl).1 hreached
      (List.mem_singleton.2 rfl)
  · exact (reached_iff_last rfl fits_hostPort rfl).2 List.not_mem_nil

end EzRouter
