import WasmBinding.Proofs.Store.Cells

/-! Pools: all things of one kind, such as globals, and the places among them that belong to each module. A module that is
added gets new places, and writing goes through places. No place then belongs to two modules. -/

namespace WasmBinding

open Wasm (Value)

/-- All things of one kind, and where those of each module lie among them. -/
structure Pool (α : Type) where
  contents : Array α := #[]
  places : List (List Nat) := []

/-- What has been made for a module that is being loaded: the contents of the pool, and the places of the module. -/
structure Making (α : Type) where
  contents : Array α
  places : List Nat := []

/-- What lies in the places behind the first contents of a list. -/
theorem filterMap_range' {α : Type} (old values : List α) :
    (List.range' old.length values.length).filterMap ((old ++ values)[·]?) = values := by
  induction values generalizing old with
  | nil => rfl
  | cons a rest ih =>
    have later := ih (old ++ [a])
    rw [List.length_append, List.append_assoc] at later
    rw [List.length_cons, List.range'_succ, List.filterMap_cons,
      List.getElem?_append_right (Nat.le_refl _), Nat.sub_self, List.getElem?_cons_zero]
    exact congrArg (a :: ·) later

namespace Making

variable {α : Type} {d : Making α} {old made : Array α}

/-- Something new. -/
def add (d : Making α) (a : α) : Making α := ⟨d.contents.push a, d.places ++ [d.contents.size]⟩

/-- What the module has so far. -/
def values (d : Making α) : Array α := (d.places.filterMap (d.contents[·]?)).toArray

/-- For an imported global a new one is made, which is zero. -/
def supply (d : Making Value) (i : Wasm.Import) : Making Value :=
  match i.kind with
  | .global type => d.add type.type.zero
  | .func _ | .table _ | .memory _ => d

/-- The initial value of a global may depend on those that the module has already. -/
def define (d : Making Value) (g : Wasm.Global) : Making Value :=
  d.add ((g.init.eval? d.values).getD g.type.type.zero)

def defineTable (d : Making (Array (Option Nat))) (limits : Wasm.Limits) : Making (Array (Option Nat)) :=
  d.add (Array.replicate limits.min none)

/-- All globals of a module: those that it imports, and those that it defines. -/
def globals (w : Wasm.Module) (d : Making Value) : Making Value := w.globals.foldl define (w.imports.foldl supply d)

/-- All tables of a module, which are those that it defines: none can be imported. -/
def tables (w : Wasm.Module) (d : Making (Array (Option Nat))) : Making (Array (Option Nat)) := w.tables.foldl defineTable d

/-- Everything that was made lies behind what was there before, each thing in a place of its own. -/
structure Behind (d : Making α) (old made : Array α) : Prop where
  contents : d.contents = old ++ made
  places : d.places = List.range' old.size made.size

theorem behind_new (old : Array α) : (⟨old, []⟩ : Making α).Behind old #[] := ⟨by simp, rfl⟩

namespace Behind

theorem add (behind : d.Behind old made) (a : α) : (d.add a).Behind old (made.push a) where
  contents := by rw [Making.add, behind.contents, Array.push_append]
  places := by
    rw [Making.add, behind.places, behind.contents, Array.size_append, Array.size_push, List.range'_concat, Nat.one_mul]

theorem values_eq (behind : d.Behind old made) : d.values = made := by
  have all := filterMap_range' old.toList made.toList
  simp only [Array.length_toList, ← Array.toList_append, Array.getElem?_toList] at all
  rw [values, behind.contents, behind.places, all]

theorem supplyAll {d : Making Value} {old made : Array Value} (behind : d.Behind old made) (imports : List Wasm.Import) :
    (imports.foldl supply d).Behind old (made ++ (Store.zerosFor imports).toArray) := by
  induction imports generalizing d made with
  | nil => simpa [Store.zerosFor] using behind
  | cons i rest ih =>
    rw [List.foldl_cons, supply]
    cases kind : i.kind with
    | global type =>
      have later := ih (behind.add type.type.zero)
      rw [Store.zerosFor_cons kind]
      simpa using later
    | func | table | memory =>
      rw [Store.zerosFor_cons_other (by simp [kind])]
      exact ih behind

theorem defineAll {d : Making Value} {old made : Array Value} (behind : d.Behind old made) (globals : List Wasm.Global) :
    (globals.foldl define d).Behind old
      (globals.foldl (fun values g => values.push ((g.init.eval? values).getD g.type.type.zero)) made) := by
  induction globals generalizing d made with
  | nil => exact behind
  | cons g rest ih =>
    apply ih
    rw [define, behind.values_eq]
    exact behind.add _

theorem defineTables {d : Making (Array (Option Nat))} {old made : Array (Array (Option Nat))}
    (behind : d.Behind old made) (tables : List Wasm.Limits) :
    (tables.foldl defineTable d).Behind old (made ++ (tables.map fun l => Array.replicate l.min none).toArray) := by
  induction tables generalizing d made with
  | nil => simpa using behind
  | cons l rest ih =>
    have later := ih (behind.add (Array.replicate l.min none))
    simpa [defineTable] using later

end Behind

/-- The globals of a new module begin with their initial values. -/
theorem behind_globals (old : Array Value) (w : Wasm.Module) :
    (globals w ⟨old, []⟩).Behind old (w.initialGlobals (w.importedGlobals.map (·.type.zero))) := by
  have behind := ((behind_new old).supplyAll w.imports).defineAll w.globals
  rwa [Array.empty_append] at behind

theorem behind_tables (old : Array (Array (Option Nat))) (w : Wasm.Module) :
    (tables w ⟨old, []⟩).Behind old (w.tables.map fun l => Array.replicate l.min none).toArray := by
  have behind := (behind_new old).defineTables w.tables
  rwa [Array.empty_append] at behind

end Making

namespace Pool

variable {α : Type} {p : Pool α} {c d : Cell} {place : Nat}

def place? (p : Pool α) (c : Cell) : Option Nat := p.places[c.module]?.bind (·[c.index]?)

def read? (p : Pool α) (c : Cell) : Option α := (p.place? c).bind (p.contents[·]?)

def write (p : Pool α) (c : Cell) (a : α) : Pool α :=
  match p.place? c with
  | some place => { p with contents := p.contents.setIfInBounds place a }
  | none => p

def writeAll (p : Pool α) (writes : List (Cell × α)) : Pool α := writes.foldl (fun p (c, a) => p.write c a) p

/-- Adds a module with all that is made for it. -/
def enter (p : Pool α) (make : Making α → Making α) : Pool α :=
  let made := make ⟨p.contents, []⟩
  ⟨made.contents, p.places ++ [made.places]⟩

/-- All places stay, and what lies in those of other modules than one is as it was. -/
structure Spares (p q : Pool α) (k : Nat) : Prop where
  places : q.places = p.places
  contents : ∀ c place, c.module ≠ k → p.place? c = some place → q.contents[place]? = p.contents[place]?

theorem Spares.refl (p : Pool α) (k : Nat) : p.Spares p k := ⟨rfl, fun _ _ _ _ => rfl⟩

/-- No place belongs to two modules, or twice to one. -/
structure Distinct (p : Pool α) : Prop where
  inside : ∀ c place, p.place? c = some place → place < p.contents.size
  apart : ∀ c d place, p.place? c = some place → p.place? d = some place → c = d

theorem distinct_empty : (⟨#[], []⟩ : Pool α).Distinct := ⟨by simp [place?], by simp [place?]⟩

theorem contents_write (there : p.place? c = some place) (a : α) :
    (p.write c a).contents = p.contents.setIfInBounds place a := by
  simp only [write, there]

theorem getElem?_write_ne (elsewhere : p.place? c ≠ some place) (a : α) :
    (p.write c a).contents[place]? = p.contents[place]? := by
  cases written : p.place? c with
  | none => simp only [write, written]
  | some other =>
    have differs : other ≠ place := by
      rintro rfl
      exact elsewhere written
    rw [contents_write written, Array.getElem?_setIfInBounds_ne differs]

@[simp] theorem places_write (p : Pool α) (c : Cell) (a : α) : (p.write c a).places = p.places := by
  unfold write
  split <;> rfl

@[simp] theorem place?_write (p : Pool α) (c : Cell) (a : α) (d : Cell) : (p.write c a).place? d = p.place? d := by
  rw [place?, places_write, place?]

@[simp] theorem size_write (p : Pool α) (c : Cell) (a : α) : (p.write c a).contents.size = p.contents.size := by
  unfold write
  split <;> simp

@[simp] theorem places_writeAll (p : Pool α) (writes : List (Cell × α)) : (p.writeAll writes).places = p.places := by
  induction writes generalizing p with
  | nil => rfl
  | cons w rest ih => exact (ih _).trans (places_write p w.1 w.2)

namespace Distinct

theorem write (distinct : p.Distinct) (c : Cell) (a : α) : (p.write c a).Distinct where
  inside d place := by simpa using distinct.inside d place
  apart d e place := by simpa using distinct.apart d e place

/-- Writing to one place changes nothing that lies in another. -/
theorem read?_write (distinct : p.Distinct) (c : Cell) (a : α) (d : Cell) :
    (p.write c a).read? d = (p.read? d).map fun was => if d = c then a else was := by
  rw [read?, place?_write, read?]
  cases there : p.place? d with
  | none => rfl
  | some place =>
    have inside := distinct.inside d place there
    rw [Option.bind_some, Option.bind_some, Array.getElem?_eq_getElem inside, Option.map_some]
    by_cases same : d = c
    · subst same
      rw [contents_write there, Array.getElem?_setIfInBounds_self_of_lt inside, if_pos rfl]
    · have elsewhere : p.place? c ≠ some place := fun written => same (distinct.apart d c place there written)
      rw [if_neg same, getElem?_write_ne elsewhere, Array.getElem?_eq_getElem inside]

theorem writeAll (distinct : p.Distinct) (writes : List (Cell × α)) : (p.writeAll writes).Distinct := by
  induction writes generalizing p with
  | nil => exact distinct
  | cons w rest ih => exact ih (distinct.write w.1 w.2)

/-- What was written last is there, or else what was there before. -/
theorem read?_writeAll (distinct : p.Distinct) (writes : List (Cell × α)) (c : Cell) :
    (p.writeAll writes).read? c = (p.read? c).map fun was => (writes.reverse.lookup c).getD was := by
  induction writes generalizing p with
  | nil => simp [Pool.writeAll]
  | cons w rest ih =>
    obtain ⟨target, a⟩ := w
    refine (ih (distinct.write target a)).trans ?_
    rw [distinct.read?_write, Option.map_map, List.reverse_cons, List.lookup_append]
    congr 1
    funext was
    by_cases same : c = target
    · subst same
      cases rest.reverse.lookup c <;> simp
    · cases rest.reverse.lookup c <;> simp [List.lookup_cons, beq_false_of_ne same, same]

/-- Writing to cells of one module leaves what belongs to the others. -/
theorem spares (distinct : p.Distinct) {writes : List (Cell × α)} (own : ∀ w ∈ writes, w.1.module = k) :
    p.Spares (p.writeAll writes) k where
  places := places_writeAll p writes
  contents := by
    intro c place other there
    induction writes generalizing p with
    | nil => rfl
    | cons w rest ih =>
      obtain ⟨target, a⟩ := w
      have first : target.module = k := own (target, a) List.mem_cons_self
      have still : (p.write target a).place? c = some place := (place?_write p target a c).trans there
      have elsewhere : p.place? target ≠ some place := by
        intro written
        have same := distinct.apart c target place there written
        exact other (same ▸ first)
      refine (ih (distinct.write target a) (fun w among => own w (List.mem_cons_of_mem _ among)) still).trans ?_
      exact getElem?_write_ne elsewhere a

end Distinct

section Enter

variable {make : Making α → Making α} {made : Array α}

/-- A module that is added has the last number, and places behind all that there were. -/
theorem place?_enter (behind : (make ⟨p.contents, []⟩).Behind p.contents made) (c : Cell) :
    (p.enter make).place? c =
      if c.module = p.places.length then if c.index < made.size then some (p.contents.size + c.index) else none
      else p.place? c := by
  rw [place?, enter, behind.places]
  by_cases new : c.module = p.places.length
  · rw [if_pos new, new, List.getElem?_concat_length, Option.bind_some]
    split
    · rename_i inside
      rw [List.getElem?_range' inside, Nat.one_mul]
    · rename_i outside
      exact List.getElem?_eq_none (by rw [List.length_range']; omega)
  · rw [if_neg new, getElem?_concat_ne _ _ new, place?]

theorem contents_enter (behind : (make ⟨p.contents, []⟩).Behind p.contents made) :
    (p.enter make).contents = p.contents ++ made := behind.contents

theorem Distinct.enter (distinct : p.Distinct) (behind : (make ⟨p.contents, []⟩).Behind p.contents made) :
    (p.enter make).Distinct := by
  constructor
  case inside =>
    intro c place there
    rw [place?_enter behind] at there
    rw [contents_enter behind, Array.size_append]
    split at there
    · split at there
      · cases there
        omega
      · cases there
    · have := distinct.inside c place there
      omega
  case apart =>
    intro c d place hasC hasD
    rw [place?_enter behind] at hasC hasD
    -- An old place lies inside the old pool, and a new one behind it.
    have old {c : Cell} (there : p.place? c = some place) : place < p.contents.size := distinct.inside c place there
    by_cases newC : c.module = p.places.length
    · rw [if_pos newC, Option.ite_none_right_eq_some, Option.some.injEq] at hasC
      by_cases newD : d.module = p.places.length
      · rw [if_pos newD, Option.ite_none_right_eq_some, Option.some.injEq] at hasD
        obtain ⟨k, i⟩ := c
        obtain ⟨l, j⟩ := d
        simp only [Cell.mk.injEq] at newC newD hasC hasD ⊢
        omega
      · rw [if_neg newD] at hasD
        have := old hasD
        omega
    · rw [if_neg newC] at hasC
      by_cases newD : d.module = p.places.length
      · rw [if_pos newD, Option.ite_none_right_eq_some, Option.some.injEq] at hasD
        have := old hasC
        omega
      · rw [if_neg newD] at hasD
        exact distinct.apart c d place hasC hasD

/-- A new module has what was made for it, and the others what they had. -/
theorem Distinct.read?_enter (distinct : p.Distinct) (behind : (make ⟨p.contents, []⟩).Behind p.contents made) (c : Cell) :
    (p.enter make).read? c = if c.module = p.places.length then made[c.index]? else p.read? c := by
  rw [read?, place?_enter behind, contents_enter behind]
  by_cases new : c.module = p.places.length
  · rw [if_pos new, if_pos new]
    by_cases inside : c.index < made.size
    · rw [if_pos inside, Option.bind_some, Array.getElem?_append_right (Nat.le_add_right _ _), Nat.add_sub_cancel_left]
    · rw [if_neg inside, Option.bind_none, Array.getElem?_eq_none (Nat.le_of_not_lt inside)]
  · rw [if_neg new, if_neg new, read?]
    cases there : p.place? c with
    | none => rfl
    | some place => rw [Option.bind_some, Option.bind_some, Array.getElem?_append_left (distinct.inside c place there)]

end Enter
end Pool

end WasmBinding
