import GrpcClient.Load

/-! # Sequences of loads

All loads of a worker share one parser, one index and one protobuf state, which
the first of them sets up. The parser keeps a descriptor for each name, and
every definition given as a string goes by the same name.
-/

namespace GrpcClient

namespace Library

variable {P : Protobuf} {w : Library P} {l : LoadArgs} {ls : List LoadArgs}

def afterLoad (w : Library P) (l : LoadArgs) : Library P := (w.load l).2

def afterLoads (w : Library P) (ls : List LoadArgs) : Library P := ls.foldl afterLoad w

/-- The loads of a sequence that return true. -/
def succeeding (w : Library P) : List LoadArgs → List LoadArgs
  | [] => []
  | l :: ls =>
    if (w.load l).1 = .loaded then l :: (w.afterLoad l).succeeding ls
    else (w.afterLoad l).succeeding ls

def libraryState (w : Library P) : Option (PbState P) := w.currentPbState.map w.states

/-! ## Failed loads -/

/-- Each load comes out as it would without the failed ones before it, and so do
the index and the library's state. -/
def NoLastingEffect (P : Protobuf) (ls : List LoadArgs) : Prop :=
  (∀ pre l post, ls = pre ++ l :: post →
    ((((init P).afterLoads pre).load l).1 = .loaded ↔
      (((init P).afterLoads ((init P).succeeding pre)).load l).1 = .loaded)) ∧
  ((init P).afterLoads ls).index = ((init P).afterLoads ((init P).succeeding ls)).index ∧
  ((init P).afterLoads ls).libraryState =
    ((init P).afterLoads ((init P).succeeding ls)).libraryState

/-- A definition fails only after one that was loaded and without a trace in the
parser, and one that compiles can be indexed. -/
def quiet (w : Library P) (l : LoadArgs) : Prop :=
  ((w.compiled l).error ≠ none →
    w.currentPbState ≠ none ∧ (w.compiled l).parser = w.parser) ∧ w.indexable (.load l)

instance [DecidableEq P.Parser] (w : Library P) (l : LoadArgs) : Decidable (w.quiet l) :=
  inferInstanceAs (Decidable (_ ∧ _))

end Library

/-- A definition that fails to load adds no types. -/
def Protobuf.FailureAddsNothing (P : Protobuf) : Prop :=
  ∀ p types files key text, (P.compile p types files key text).error ≠ none →
    (P.compile p types files key text).types = types

namespace Library

variable {P : Protobuf} {w : Library P} {l : LoadArgs} {ls : List LoadArgs}

/-- The compiler is there before the library's state is. -/
def Started (w : Library P) : Prop := w.currentPbState ≠ none → w.protocInst ≠ none

theorem started_init : (init P).Started := fun h => absurd rfl h

theorem started_afterLoad (w : Library P) (l : LoadArgs) : (w.afterLoad l).Started := by
  intro _
  rw [afterLoad, load_protocInst]
  exact Option.some_ne_none _

/-- A failed load that meets the condition does not change the module at all. -/
theorem afterLoad_of_failed (hTypes : P.FailureAddsNothing) (hStarted : w.Started)
    (hQuiet : w.quiet l) (hFailed : (w.load l).1 ≠ .loaded) : w.afterLoad l = w := by
  cases hErr : (w.compiled l).error with
  | none =>
    obtain ⟨d, hDesc, hIndexable⟩ := hQuiet.2 hErr
    rw [load_loaded hErr hDesc (indexServices_done hIndexable)] at hFailed
    exact absurd rfl hFailed
  | some err =>
    have hNe : (w.compiled l).error ≠ none := by simp [hErr]
    obtain ⟨hLib, hParser⟩ := hQuiet.1 hNe
    obtain ⟨inst, hInst⟩ := Option.ne_none_iff_exists'.mp (hStarted hLib)
    obtain ⟨i, hLib⟩ := Option.ne_none_iff_exists'.mp hLib
    have hOwn : w.own = ⟨i, w.nextState, w.states i⟩ := by simp [own, hInst, hLib]
    have hKept : (w.compiled l).types = w.own.state.types := hTypes _ _ _ _ _ hNe
    have hSame : (⟨w.parser, w.index⟩ : ProtocInst P) = inst := by simp [parser, index, hInst]
    rw [afterLoad, load_failed hErr, compiling, hKept, hParser, hSame, hOwn]
    simp [← hInst]

theorem afterLoads_succeeding (hTypes : P.FailureAddsNothing) (hStarted : w.Started)
    (h : Transition.Along afterLoad quiet w ls) :
    w.afterLoads (w.succeeding ls) = w.afterLoads ls := by
  induction ls generalizing w with
  | nil => rfl
  | cons l ls ih =>
    obtain ⟨hQuiet, hTail⟩ := h
    have hRest := ih (started_afterLoad w l) hTail
    by_cases hLoaded : (w.load l).1 = .loaded
    · rw [succeeding, if_pos hLoaded]
      exact hRest
    · rw [succeeding, if_neg hLoaded]
      have hSame := afterLoad_of_failed hTypes hStarted hQuiet hLoaded
      rw [hSame] at hRest ⊢
      rw [hRest, afterLoads, afterLoads, List.foldl_cons, hSame]

theorem failed_loads_vanish (hTypes : P.FailureAddsNothing)
    (h : Transition.Along afterLoad quiet (init P) ls) : NoLastingEffect P ls := by
  refine ⟨?_, ?_, ?_⟩
  · rintro pre l post rfl
    have hPre := (Transition.along_append.mp h).1
    rw [afterLoads_succeeding hTypes started_init hPre]
  · rw [afterLoads_succeeding hTypes started_init h]
  · rw [afterLoads_succeeding hTypes started_init h]

end Library

instance : DecidableEq sample.Parser :=
  inferInstanceAs (DecidableEq (List (String × Option FileDesc)))

theorem sample_failureAddsNothing : sample.FailureAddsNothing := by
  intro p types files key text hErr
  simp only [sample] at hErr ⊢
  split
  · split
    · simp_all
    · rfl
  · rfl
  · rfl
  · split
    · rfl
    · split
      · simp_all
      · rfl

namespace Library

def brokenBetween : List LoadArgs := [
  loadStr echoProto,
  loadFile "missing.proto" none,
  loadFile "ping.proto" (some pingProto)]

theorem failed_loads_vanish_brokenBetween :
    ((init sample).succeeding brokenBetween).map LoadArgs.source = [echoProto, "ping.proto"] ∧
    NoLastingEffect sample brokenBetween := by
  refine ⟨by decide +kernel, failed_loads_vanish sample_failureAddsNothing ?_⟩
  exact ⟨by decide +kernel, by decide +kernel, by decide +kernel, trivial⟩

/-- The first load fails, and with it every later one: the compiler exists, so
`protoc.reload` is not run again, and the state it was run in is gone. -/
theorem first_failure_lasts : ¬ NoLastingEffect sample
    [loadFile "missing.proto" none, loadStr echoProto] := by
  rintro ⟨hSame, -⟩
  have hSecond := hSame [loadFile "missing.proto" none] (loadStr echoProto) [] rfl
  revert hSecond
  decide +kernel

end Library

/-! ## What a load publishes -/

/-- The parser keeps one descriptor for each name: a name that has one keeps it,
and the text is read only for a name that has none. `describe` is what the parser
makes of a text. -/
structure Protobuf.Caches (P : Protobuf)
    (describe : P.Parser → Files → String → Option FileDesc) : Prop where
  cached : ∀ {p types files key text d}, P.loaded p key = some d →
    (P.compile p types files key text).error = none →
    P.loaded (P.compile p types files key text).parser key = some d
  parsed : ∀ {p types files key text}, P.loaded p key = none →
    (P.compile p types files key text).error = none →
    P.loaded (P.compile p types files key text).parser key =
      (text.or (files key)).bind (describe p files)

def FileDesc.services (d : FileDesc) : List Service := d.service.getD []

def Service.methods (s : Service) : List Method := s.method.getD []

/-- No two services of one name, and no two methods of a service. -/
def FileDesc.Distinct (d : FileDesc) : Prop :=
  (∀ s ∈ d.services, ∀ s' ∈ d.services, s'.name = s.name → s' = s) ∧
  ∀ s ∈ d.services, ∀ m ∈ s.methods, ∀ m' ∈ s.methods, m'.name = m.name → m' = m

instance (d : FileDesc) : Decidable d.Distinct := inferInstanceAs (Decidable (_ ∧ _))

/-- One of its services has this key in the index. -/
def FileDesc.Declares (d : FileDesc) (key : String) : Prop :=
  ∃ pkg ∈ d.package, ∃ s ∈ d.services, pkg ++ "." ++ s.name = key

theorem methodIndex_of_mem {ms : List Method} {m : Method} (hMem : m ∈ ms)
    (h : ∀ m' ∈ ms, m'.name = m.name → m' = m) : methodIndex ms m.name = some m :=
  PartialMap.fill_of_mem (f := id) hMem h

theorem indexServices_of_not_declared {package : Option String} {index : Index}
    {ss : List Service} {key : String}
    (h : ∀ pkg ∈ package, ∀ s ∈ ss, pkg ++ "." ++ s.name ≠ key) :
    (indexServices package index ss).2 key = index key := by
  induction ss generalizing index with
  | nil => rfl
  | cons s ss ih =>
    unfold indexServices
    split
    · rename_i pkg _
      rw [ih fun pkg' hPkg' s' hs' => h pkg' hPkg' s' (List.mem_cons_of_mem s hs')]
      exact Function.update_of_ne (h pkg rfl s List.mem_cons_self).symm _ _
    · rfl

/-- A loop that comes to its end has gone over services with methods. -/
theorem indexServices_eq_fill {pkg : String} {index : Index} {ss : List Service}
    (h : (indexServices (some pkg) index ss).1 = true) :
    (indexServices (some pkg) index ss).2 =
      PartialMap.fill (fun s => pkg ++ "." ++ s.name) (fun s => methodIndex s.methods) index ss := by
  induction ss generalizing index with
  | nil => rfl
  | cons s ss ih =>
    unfold indexServices at h ⊢
    cases hMs : s.method with
    | none =>
      simp only [hMs] at h
      cases h
    | some ms =>
      simp only [hMs] at h ⊢
      rw [ih h]
      simp [PartialMap.fill, Service.methods, hMs]

namespace Library

variable {P : Protobuf} {w : Library P} {l : LoadArgs} {ls : List LoadArgs}
  {describe : P.Parser → Files → String → Option FileDesc}

/-- The descriptor of the definition itself, from the text or the file as it is. -/
def described (describe : P.Parser → Files → String → Option FileDesc) (w : Library P)
    (l : LoadArgs) : Option FileDesc :=
  (l.text.or (l.files l.loadedKey)).bind (describe w.parser l.files)

/-- A definition that compiles goes by a name that has no other descriptor, and
declares nothing twice. -/
def ownName (describe : P.Parser → Files → String → Option FileDesc) (w : Library P)
    (l : LoadArgs) : Prop :=
  (w.compiled l).error = none →
    (∀ d ∈ P.loaded w.parser l.loadedKey, w.described describe l = some d) ∧
    ∀ d ∈ w.described describe l, d.Distinct

instance (w : Library P) (l : LoadArgs) : Decidable (w.ownName describe l) :=
  inferInstanceAs (Decidable (_ → _ ∧ _))

def Redefines (describe : P.Parser → Files → String → Option FileDesc) (w : Library P)
    (l : LoadArgs) (key : String) : Prop :=
  (w.compiled l).error = none ∧ ∃ d ∈ w.described describe l, d.Declares key

/-- What a successful load declares is found in the end, if no later load
redefines the service. -/
def Published (describe : P.Parser → Files → String → Option FileDesc)
    (ls : List LoadArgs) : Prop :=
  ∀ pre l post, ls = pre ++ l :: post →
    (((init P).afterLoads pre).load l).1 = .loaded →
    ∀ d ∈ ((init P).afterLoads pre).described describe l, ∀ s ∈ d.services, ∀ m ∈ s.methods,
      ∃ pkg, d.package = some pkg ∧
        ((∀ mid l' rest, post = mid ++ l' :: rest →
          ¬ ((init P).afterLoads (pre ++ l :: mid)).Redefines describe l' (pkg ++ "." ++ s.name)) →
        ((init P).afterLoads ls).findMethod (pkg ++ "." ++ s.name) m.name = .ok m)

theorem loaded_described (hCaches : P.Caches describe) (hOwn : w.ownName describe l)
    (hErr : (w.compiled l).error = none) :
    P.loaded (w.compiled l).parser l.loadedKey = w.described describe l := by
  cases hDesc : P.loaded w.parser l.loadedKey with
  | none => exact hCaches.parsed hDesc hErr
  | some d =>
    rw [(hOwn hErr).1 d hDesc]
    exact hCaches.cached hDesc hErr

theorem afterLoad_index (w : Library P) (l : LoadArgs) : (w.afterLoad l).index = w.indexed l := by
  rw [index, afterLoad, load_protocInst]
  rfl

theorem afterLoad_index_of_not_redefined (hCaches : P.Caches describe)
    (hOwn : w.ownName describe l) {key : String} (h : ¬ w.Redefines describe l key) :
    (w.afterLoad l).index key = w.index key := by
  rw [afterLoad_index]
  cases hErr : (w.compiled l).error with
  | some err => simp only [indexed, hErr]
  | none =>
    cases hDesc : P.loaded (w.compiled l).parser l.loadedKey with
    | none => simp only [indexed, hErr, hDesc]
    | some d =>
      simp only [indexed, hErr, hDesc]
      rw [loaded_described hCaches hOwn hErr] at hDesc
      apply indexServices_of_not_declared
      intro pkg hPkg s hs hKey
      exact h ⟨hErr, d, hDesc, pkg, hPkg, s, hs, hKey⟩

theorem afterLoads_index_of_not_redefined (hCaches : P.Caches describe) {key : String}
    (hOwn : Transition.Along afterLoad (ownName describe) w ls)
    (h : ∀ mid l rest, ls = mid ++ l :: rest →
      ¬ (w.afterLoads mid).Redefines describe l key) :
    (w.afterLoads ls).index key = w.index key := by
  induction ls generalizing w with
  | nil => rfl
  | cons l ls ih =>
    calc (w.afterLoads (l :: ls)).index key
        = (w.afterLoad l).index key :=
          ih hOwn.2 fun mid l' rest hSplit => h (l :: mid) l' rest (by rw [hSplit]; rfl)
      _ = w.index key := afterLoad_index_of_not_redefined hCaches hOwn.1 (h [] l ls rfl)

theorem findMethod_of_index {service : String} {t : String → Option Method} {m : Method}
    (hService : w.index service = some t) (hMethod : t m.name = some m) :
    w.findMethod service m.name = .ok m := by
  unfold index at hService
  unfold findMethod
  cases hInst : w.protocInst with
  | none =>
    rw [hInst] at hService
    cases hService
  | some inst =>
    rw [hInst] at hService
    simp only [Option.elim_some] at hService
    simp [hService, hMethod]

theorem afterLoad_index_of_loaded (hCaches : P.Caches describe) (hOwn : w.ownName describe l)
    (hLoaded : (w.load l).1 = .loaded) {d : FileDesc} (hd : d ∈ w.described describe l)
    {s : Service} (hs : s ∈ d.services) : ∃ pkg, d.package = some pkg ∧
      (w.afterLoad l).index (pkg ++ "." ++ s.name) = some (methodIndex s.methods) := by
  obtain ⟨hErr, d', hDesc, hDone⟩ := loaded_cases hLoaded
  obtain rfl : d' = d := by
    rw [loaded_described hCaches hOwn hErr, hd] at hDesc
    exact (Option.some.inj hDesc).symm
  have hPkg : d'.package ≠ none := by
    intro hNone
    obtain ⟨s', ss, hServices⟩ := List.exists_cons_of_ne_nil (List.ne_nil_of_mem hs)
    rw [FileDesc.services] at hServices
    rw [hServices, hNone, indexServices] at hDone
    · cases hDone
    · rintro ms pkg - ⟨⟩
  obtain ⟨pkg, hPkg⟩ := Option.ne_none_iff_exists'.mp hPkg
  refine ⟨pkg, hPkg, ?_⟩
  rw [hPkg] at hDone
  rw [afterLoad_index, indexed]
  simp only [hErr, hDesc, hPkg]
  rw [indexServices_eq_fill hDone]
  apply PartialMap.fill_of_mem (k := fun s => pkg ++ "." ++ s.name) hs
  intro s' hs' hKey
  have hName : s'.name = s.name := by simpa using hKey
  rw [((hOwn hErr).2 d' hd).1 s hs s' hs' hName]

theorem loads_publish (hCaches : P.Caches describe)
    (h : Transition.Along afterLoad (ownName describe) (init P) ls) : Published describe ls := by
  rintro pre l post rfl hLoaded d hd s hs m hm
  obtain ⟨-, hOwn, hPost⟩ := Transition.along_append.mp h
  rw [← afterLoads] at hOwn hPost
  obtain ⟨pkg, hPkg, hIndex⟩ := afterLoad_index_of_loaded hCaches hOwn hLoaded hd hs
  refine ⟨pkg, hPkg, fun hKept => ?_⟩
  have hErr := (loaded_cases hLoaded).1
  have hSplit (mid : List LoadArgs) : (init P).afterLoads (pre ++ l :: mid) =
      (((init P).afterLoads pre).afterLoad l).afterLoads mid := by simp [afterLoads]
  rw [hSplit]
  refine findMethod_of_index (t := methodIndex s.methods) ?_
    (methodIndex_of_mem hm (((hOwn hErr).2 d hd).2 s hs m hm))
  rw [← hIndex]
  apply afterLoads_index_of_not_redefined hCaches hPost
  intro mid l' rest hMid
  rw [← hSplit]
  exact hKept mid l' rest hMid

end Library

theorem sample_caches : sample.Caches fun _ _ => sampleDesc := by
  constructor
  · intro p types files key text d hDesc _
    have hLook : List.lookup key p = some (some d) := Option.join_eq_some_iff.mp hDesc
    simp only [sample, hLook]
    split
    · exact hDesc
    · exact hDesc
  · intro p types files key text hDesc hErr
    have hSelf (d : FileDesc) (p : List (String × Option FileDesc)) :
        (List.lookup key ((key, some d) :: p)).join = some d := by
      rw [List.lookup_cons_self, Option.join_some]
    simp only [sample] at hErr ⊢
    cases hLook : List.lookup key p with
    | some entry =>
      obtain rfl : entry = none := by simpa [sample, hLook] using hDesc
      simp [hLook] at hErr
    | none =>
      cases hSrc : text.or (files key) with
      | none => simp [hLook, hSrc] at hErr
      | some src =>
        cases hText : sampleDesc src with
        | none => simp [hLook, hSrc, hText] at hErr
        | some d =>
          simp only [hText, Option.bind_some]
          split
          · exact hSelf d p
          · exact hSelf d p

namespace Library

def stringAndFile : List LoadArgs := [
  loadStr echoProto,
  loadFile "ping.proto" (some pingProto)]

theorem loads_publish_stringAndFile :
    ((init sample).succeeding stringAndFile).map LoadArgs.source = [echoProto, "ping.proto"] ∧
    Published (P := sample) (fun _ _ => sampleDesc) stringAndFile := by
  refine ⟨by decide +kernel, loads_publish sample_caches ?_⟩
  exact ⟨by decide +kernel, by decide +kernel, trivial⟩

/-- The second string is loaded under the name of the first and is never read. -/
theorem second_string_not_published : ¬ Published (P := sample) (fun _ _ => sampleDesc)
    [loadStr echoProto, loadStr pingProto] := by
  intro hPublished
  obtain ⟨pkg, hPkg, hFound⟩ := hPublished [loadStr echoProto] (loadStr pingProto) [] rfl
    (by decide +kernel) _ rfl _ List.mem_cons_self _ List.mem_cons_self
  cases hPkg
  have hNot := hFound (by simp)
  revert hNot
  decide +kernel

end Library

end GrpcClient
