import WasmBinding.Proofs.Host.OneMemory
import WasmBinding.Proofs.Host.Resolution
import WasmBinding.Proofs.Store.Service

/-! The memory over time. Once there is a memory to see it is the same one from then on, and whatever is loaded, linked,
called, set or resized, it never gets smaller. -/

namespace WasmBinding

namespace Host

variable {σ : Type} {h after : Host σ}

theorem resizes_of_shared? {l : Wasm.LinearMemory} (shown : h.store.shared? = some l) (whole : l.Whole) :
    Resizes h.resize (fun after => after.memory.toOption) l.bytes l.pages l.limit := by
  have resizes := Store.resizes_of_shared? shown whole
  refine ⟨resizes.size, ?_, ?_⟩
  · intro pages fewer allowed
    obtain ⟨t, after, resized, seen, grown⟩ := resizes.grows pages fewer allowed
    have resized : h.resize pages = .ok { h with store := t } := by
      rw [resize, resized]
      rfl
    refine ⟨_, after, resized, ?_, grown⟩
    rw [memory_eq_ok_iff.mpr seen]
    rfl
  · intro pages outside
    obtain ⟨fault, refused⟩ := resizes.refuses pages outside
    refine ⟨.ofFault fault, ?_⟩
    rw [resize, refused]
    rfl

theorem used_load (h : Host σ) (parsed : ParsedModule.parse e bytes = .ok p) : h.store.Use false (h.load p).1.store := by
  cases loaded : h.store.load p with
  | mk t result =>
    have use := Store.Use.load ⟨e, bytes, parsed⟩ loaded
    unfold load
    split
    · exact .idle _
    · rw [loaded]
      cases result <;> exact use

theorem used_call (h : Host σ) (f : FunctionRef) (args : List Scalar) : h.store.Use true (h.call f args).1.store := by
  unfold call
  split
  · exact .idle _
  · exact .call rfl

end Host

namespace Session

variable {σ : Type} {s t : Session σ}

/-- Each operation makes uses of the store. -/
theorem used_perform (s : Session σ) (op : Operation σ) : s.host.store.Used (s.perform op).host.store := by
  cases op with
  | load e bytes =>
    simp only [perform]
    split
    · rename_i parsed
      exact (s.host.used_load parsed).used
    · exact .refl
  | parseAndLoad bytes =>
    simp only [perform, Host.parseAndLoad]
    split
    · rename_i parsed
      exact (s.host.used_load parsed).used
    · exact .refl
  | link m ns name f =>
    simp only [perform]
    split
    · rename_i linked
      obtain ⟨slot, _, rfl⟩ := Host.link_ok linked
      exact (Store.Use.setTarget slot _).used.use (.setHost _)
    · exact .refl
  | findFunction name =>
    simp only [perform, noteFunction]
    split <;> exact .refl
  | findModuleFunction m name =>
    simp only [perform, noteFunction]
    split <;> exact .refl
  | findGlobal m name type =>
    simp only [perform]
    split <;> exact .refl
  | call f args => exact (s.host.used_call f args).used
  | callFor f type args =>
    simp only [perform]
    rw [s.host.callFor_host f type args]
    split
    · exact (s.host.used_call f args).used
    · exact .refl
  | setValue g v =>
    simp only [perform]
    split
    · rename_i set
      obtain ⟨_, store, written, rfl⟩ := Host.setValue_ok set
      exact (Store.Use.setGlobal written).used
    · exact .refl
  | write change =>
    simp only [perform]
    split
    · rename_i m found
      exact (Store.Use.setMemory (Host.memory_eq_ok_iff.mp found) _ (change m).property).used
    · exact .refl
  | resize pages =>
    simp only [perform]
    split
    · rename_i resized
      obtain ⟨store, grown, rfl⟩ := Host.resize_ok resized
      exact (Store.Use.resize grown).used
    · exact .refl
  | setUser user => exact (Store.Use.setHost _).used

theorem Leads.advances (leads : s.Leads t) : s.host.store.Advances t.host.store := by
  induction leads with
  | refl => exact .refl _
  | perform _ op _ ih => exact ih.trans (used_perform _ op).advances

theorem Reachable.whole (reached : s.Reachable) :
    ∀ (place : Nat) (m : Wasm.LinearMemory), s.host.store.memories[place]? = some m → m.Whole := by
  induction reached with
  | new created steps =>
    rw [Host.new_ok created]
    simp [Host.bounded]
  | @perform before _ op _ ih => exact (used_perform before op).advances.pool.whole ih

end Session

/-- In every run of a store, and of a host, the memory that can be seen stays the one that it was, and never gets smaller.
It can be resized to any number of pages between its own and its limit, which adds zeros, and to no other number. -/
theorem memory_only_grows {σ : Type} :
    (∀ (v : Service σ) (m : Memory), v.Reachable → v.store.memory? = some m →
      (∀ w, v.Leads Service.Allows w →
        w.store.memory = v.store.memory ∧ ∃ after, w.store.memory? = some after ∧ m.size ≤ after.size) ∧
      (∃ l, v.store.shared? = some l ∧ l.bytes = m ∧ Resizes v.store.resize Store.memory? m l.pages l.limit) ∧
      ∀ pages fault, v.store.resize pages = .error fault → v.serve (.resize pages) = v) ∧
    ∀ (s : Session σ) (m : Memory), s.Reachable → s.host.memory = .ok m →
      (∀ t, s.Leads t →
        t.host.store.memory = s.host.store.memory ∧ ∃ after, t.host.memory = .ok after ∧ m.size ≤ after.size) ∧
      (∃ l, s.host.store.shared? = some l ∧ l.bytes = m ∧
        Resizes s.host.resize (fun after => after.memory.toOption) m l.pages l.limit) ∧
      ∀ pages e, s.host.resize pages = .error e → s.perform (.resize pages) = s := by
  constructor
  · intro v m reached seen
    obtain ⟨l, shown, rfl⟩ := Option.map_eq_some_iff.mp seen
    refine ⟨fun w leads => leads.advances.memory? seen, ⟨l, shown, rfl, ?_⟩, fun pages fault failed => ?_⟩
    · obtain ⟨place, _, found⟩ := Option.bind_eq_some_iff.mp shown
      exact Store.resizes_of_shared? shown (reached.whole place l found)
    · rw [Service.serve, failed, Service.noteStore]
  · intro s m reached seen
    have seen := Host.memory_eq_ok_iff.mp seen
    obtain ⟨l, shown, rfl⟩ := Option.map_eq_some_iff.mp seen
    refine ⟨fun t leads => ?_, ⟨l, shown, rfl, ?_⟩, fun pages e failed => ?_⟩
    · obtain ⟨same, after, seen', larger⟩ := leads.advances.memory? seen
      exact ⟨same, after, Host.memory_eq_ok_iff.mpr seen', larger⟩
    · obtain ⟨place, _, found⟩ := Option.bind_eq_some_iff.mp shown
      exact Host.resizes_of_shared? shown (reached.whole place l found)
    · rw [Session.perform, failed]

namespace Pump

/-- Exports the memory `m`, of one page and at most three, and `g`, which grows it by a page. -/
def binary : Wasm.Bytes :=
  [0x00, 0x61, 0x73, 0x6d, 0x01, 0x00, 0x00, 0x00,
    0x01, 0x04, 0x01, 0x60, 0x00, 0x00,
    0x03, 0x02, 0x01, 0x00,
    0x05, 0x04, 0x01, 0x01, 0x01, 0x03,
    0x07, 0x09, 0x02, 0x01, 0x6d, 0x02, 0x00, 0x01, 0x67, 0x00, 0x00,
    0x0a, 0x09, 0x01, 0x07, 0x00, 0x41, 0x01, 0x40, 0x00, 0x1a, 0x0b]

def function : Function := ⟨0, 0, [], []⟩

def service : Service Nat :=
  (Sample.service.serve (.load Sample.environment binary)).serve (.findFunction "g")

theorem service_reachable : service.Reachable :=
  (Sample.reachable_service.serve (.load Sample.environment binary) trivial).serve (.findFunction "g") trivial

theorem offered : function ∈ service.functions := by decide +kernel

theorem service_seen : service.store.memory?.map Memory.size = some 65536 := by decide +kernel

def session : Session Nat := (Sample.start.perform (.parseAndLoad binary)).perform (.findFunction "g")

def handle : FunctionRef := ⟨0, function⟩

theorem session_reachable : session.Reachable :=
  (Sample.reachable_start.perform (.parseAndLoad binary) trivial).perform (.findFunction "g") trivial

theorem issued : handle ∈ session.functions := by decide +kernel

theorem session_seen : session.host.store.memory?.map Memory.size = some 65536 := by decide +kernel

end Pump

theorem memory_only_grows_pump :
    (∃ m after, Pump.service.store.memory? = some m ∧ m.size = 65536 ∧
      (Pump.service.serve (.call Pump.function [])).store.memory? = some after ∧ m.size ≤ after.size ∧
      ∃ l, Pump.service.store.shared? = some l ∧ l.bytes = m ∧
        Resizes Pump.service.store.resize Store.memory? m l.pages l.limit) ∧
    ∃ m after, Pump.session.host.memory = .ok m ∧ m.size = 65536 ∧
      (Pump.session.perform (.call Pump.handle [])).host.memory = .ok after ∧ m.size ≤ after.size ∧
      ∃ l, Pump.session.host.store.shared? = some l ∧ l.bytes = m ∧
        Resizes Pump.session.host.resize (fun after => after.memory.toOption) m l.pages l.limit := by
  constructor
  · obtain ⟨m, seen, size⟩ := Option.map_eq_some_iff.mp Pump.service_seen
    obtain ⟨stays, ⟨l, shown, same, resizes⟩, _⟩ := memory_only_grows.1 Pump.service m Pump.service_reachable seen
    obtain ⟨_, after, seen', larger⟩ := stays _ (.serve .refl (.call Pump.function []) Pump.offered)
    exact ⟨m, after, seen, size, seen', larger, l, shown, same, resizes⟩
  · obtain ⟨m, seen, size⟩ := Option.map_eq_some_iff.mp Pump.session_seen
    have seen := Host.memory_eq_ok_iff.mpr seen
    obtain ⟨stays, ⟨l, shown, same, resizes⟩, _⟩ := memory_only_grows.2 Pump.session m Pump.session_reachable seen
    obtain ⟨_, after, seen', larger⟩ := stays _ (.perform .refl (.call Pump.handle []) fun _ => Pump.issued)
    exact ⟨m, after, seen, size, seen', larger, l, shown, same, resizes⟩

end WasmBinding
