import FreeCore.Lib.Minstd
import Mathlib.Data.List.Range

/-! # The device driver registry

The slot rows of `driversys.c`: over every run of registrations and unregistrations each class's
row is a plain list that registering appends to and unregistering erases from (`run_rows`). -/

namespace FreeCore.Drivers

open FreeCore.Lib (strcmp)

/-- `MAX_DRIVERS_PER_CLASS`. -/
def maxDriversPerClass : Nat := 32

/-- `DEVICE_CLASS_MAX`: the number of device classes. -/
def deviceClassMax : Nat := 8

/-- `driver_state_t`. -/
inductive DriverState
  | unloaded
  | initializing
  | ready
  | error
  deriving DecidableEq, Repr

/-- A `device_driver_t`, with what the registry reads of its `ops`: whether they hold a `probe`
and a `remove`. -/
structure DeviceDriver where
  name : Option (List UInt8)
  deviceClass : Nat
  state : DriverState
  hasProbe : Bool
  hasRemove : Bool

/-- `device_registry`, its slots holding driver addresses, with the driver records. -/
structure Registry where
  drivers : Nat → Nat → Option Nat
  driverCount : Nat → Nat
  records : Nat → DeviceDriver

namespace Registry

/-- The registry as `device_driver_init` leaves it: no slot filled. -/
def initial (records : Nat → DeviceDriver) : Registry := ⟨fun _ _ => none, fun _ => 0, records⟩

/-- `driver->state = state`. -/
def setState (r : Registry) (driver : Nat) (state : DriverState) : Registry :=
  { r with records := Function.update r.records driver { r.records driver with state := state } }

/-- The row of class `c`: its first `driver_count[c]` slots. -/
def row (r : Registry) (c : Nat) : List (Option Nat) :=
  (List.range (r.driverCount c)).map (r.drivers c)

/-- `slot = driver_count[c]++; drivers[c][slot] = driver;` -/
def append (r : Registry) (c address : Nat) : Registry :=
  { r with
    drivers := Function.update r.drivers c (Function.update (r.drivers c) (r.driverCount c) address)
    driverCount := Function.update r.driverCount c (r.driverCount c + 1) }

/-- The registry accepts the driver at `address`: it has a name, its class exists and the class
has room. -/
def Accepts (r : Registry) (address : Nat) : Prop :=
  (r.records address).name ≠ none ∧ (r.records address).deviceClass < deviceClassMax ∧
    r.driverCount (r.records address).deviceClass < maxDriversPerClass

instance (r : Registry) (address : Nat) : Decidable (r.Accepts address) := by
  unfold Accepts
  infer_instance

end Registry

/-- `device_driver_register(driver)`, `probeResult` being what `driver->ops->probe(driver)`
returns: the driver takes the slot after the last of its class, then is probed. -/
def deviceDriverRegister (r : Registry) (driver : Option Nat) (probeResult : Int) :
    Int × Registry :=
  match driver with
  | none => (-1, r)
  | some address =>
      let record := r.records address
      if record.name = none ∨ deviceClassMax ≤ record.deviceClass then (-1, r)
      else
        let c := record.deviceClass
        if maxDriversPerClass ≤ r.driverCount c then (-1, r)
        else
          let r := (r.append c address).setState address .initializing
          if record.hasProbe then
            if probeResult = 0 then (0, r.setState address .ready)
            else (probeResult, r.setState address .error)
          else (0, r.setState address .ready)

/-- The search of `device_driver_unregister`: the first slot of class `c`, below its count, that
holds the driver. -/
def findSlot (r : Registry) (c address : Nat) : Option Nat :=
  (List.range (r.driverCount c)).find? fun i => r.drivers c i = some address

/-- `for (j = i; j < count - 1; j++) drivers[j] = drivers[j + 1];` from `j` with `remaining`
iterations left. -/
def shiftDown (row : Nat → Option Nat) : (j remaining : Nat) → Nat → Option Nat
  | _, 0 => row
  | j, remaining + 1 => shiftDown (Function.update row j (row (j + 1))) (j + 1) remaining

/-- `device_driver_unregister(driver)`: its first slot goes, the later slots move down. -/
def deviceDriverUnregister (r : Registry) (driver : Option Nat) : Int × Registry :=
  match driver with
  | none => (-1, r)
  | some address =>
      let c := (r.records address).deviceClass
      if deviceClassMax ≤ c then (-1, r)
      else
        match findSlot r c address with
        | none => (-1, r)
        | some i =>
            let r := r.setState address .unloaded
            let count := r.driverCount c
            (0, { r with
              drivers := Function.update r.drivers c (shiftDown (r.drivers c) i (count - 1 - i))
              driverCount := Function.update r.driverCount c (count - 1) })

/-- `device_driver_find(name, device_class)`: the first driver of the class whose name
`strcmp` finds equal. -/
def deviceDriverFind (r : Registry) (name : Option (List UInt8)) (deviceClass : Nat) :
    Option Nat :=
  if name = none ∨ deviceClassMax ≤ deviceClass then none
  else
    (List.range (r.driverCount deviceClass)).findSome? fun i =>
      match r.drivers deviceClass i with
      | some driver => if strcmp (r.records driver).name name = 0 then some driver else none
      | none => none

/-- `device_driver_enumerate(device_class, callback, context)`, `callback` giving what the
callback returns for each driver: the number of drivers passed before the first non-zero
result. -/
def deviceDriverEnumerate (r : Registry) (deviceClass : Nat) (callback : Option (Nat → Int)) :
    Int :=
  match callback with
  | none => -1
  | some callback =>
      if deviceClassMax ≤ deviceClass then -1
      else
        (((List.range (r.driverCount deviceClass)).filterMap (r.drivers deviceClass)).takeWhile
          fun driver => callback driver = 0).length

/-! ## Rows as lists -/

namespace Registry

@[simp] theorem setState_drivers (r : Registry) (driver : Nat) (state : DriverState) :
    (r.setState driver state).drivers = r.drivers := rfl

@[simp] theorem setState_driverCount (r : Registry) (driver : Nat) (state : DriverState) :
    (r.setState driver state).driverCount = r.driverCount := rfl

@[simp] theorem setState_row (r : Registry) (driver : Nat) (state : DriverState) :
    (r.setState driver state).row = r.row := rfl

@[simp] theorem setState_name (r : Registry) (driver other : Nat) (state : DriverState) :
    ((r.setState driver state).records other).name = (r.records other).name := by
  by_cases same : other = driver
  · subst same
    simp [setState]
  · simp [setState, same]

@[simp] theorem setState_deviceClass (r : Registry) (driver other : Nat) (state : DriverState) :
    ((r.setState driver state).records other).deviceClass = (r.records other).deviceClass := by
  by_cases same : other = driver
  · subst same
    simp [setState]
  · simp [setState, same]

@[simp] theorem length_row (r : Registry) (c : Nat) : (r.row c).length = r.driverCount c := by
  simp [row]

end Registry

/-- The slots the shift loop leaves: slot `x` of the shifted range takes the next slot's
driver. -/
theorem shiftDown_apply (row : Nat → Option Nat) :
    ∀ (j remaining x : Nat), shiftDown row j remaining x =
      if j ≤ x ∧ x < j + remaining then row (x + 1) else row x
  | j, 0, x => by simp only [shiftDown]; rw [if_neg (by omega)]
  | j, remaining + 1, x => by
      rw [shiftDown, shiftDown_apply _ (j + 1) remaining x]
      simp only [Function.update_apply]
      split
      · rw [if_neg (by omega), if_pos (by omega)]
      · split
        · rename_i at_j
          rw [if_pos (by omega), at_j]
        · rw [if_neg (by omega)]

/-- The search finds the first slot holding the driver. -/
theorem findSlot_eq_some {r : Registry} {c address i : Nat} :
    findSlot r c address = some i ↔
      i < r.driverCount c ∧ r.drivers c i = some address ∧
        ∀ j < i, r.drivers c j ≠ some address := by
  simp only [findSlot, List.find?_range_eq_some, decide_eq_true_eq, List.mem_range,
    Bool.not_eq_true', decide_eq_false_iff_not]
  constructor <;> rintro ⟨first, second, third⟩ <;> exact ⟨second, first, third⟩

theorem findSlot_eq_none {r : Registry} {c address : Nat} :
    findSlot r c address = none ↔ some address ∉ r.row c := by
  simp [findSlot, Registry.row]

/-- Shifting down from the driver's first slot erases its first occurrence from the row. -/
theorem row_shiftDown {r : Registry} {c address i : Nat} (found : findSlot r c address = some i) :
    (List.range (r.driverCount c - 1)).map (shiftDown (r.drivers c) i (r.driverCount c - 1 - i)) =
      (r.row c).erase (some address) := by
  obtain ⟨lt, at_i, before⟩ := findSlot_eq_some.mp found
  have index : List.indexOf (some address) (r.row c) = i := by
    unfold List.indexOf
    rw [List.findIdx_eq (by simpa using lt)]
    simp only [Registry.row, List.getElem_map, List.getElem_range, at_i, beq_self_eq_true,
      true_and]
    intro j lt_i
    simpa using before j lt_i
  rw [← List.eraseIdx_indexOf_eq_erase, index]
  apply List.ext_getElem
  · simp [List.length_eraseIdx, lt]
  · intro j lt_left _
    simp only [List.length_map, List.length_range] at lt_left
    rw [List.getElem_eraseIdx, List.getElem_map, List.getElem_range, shiftDown_apply]
    by_cases below : j < i
    · rw [dif_pos below, if_neg (by omega)]
      simp [Registry.row]
    · rw [dif_neg below, if_pos (by omega)]
      simp [Registry.row]

theorem deviceDriverRegister_of_not_accepts {r : Registry} {address : Nat}
    (rejected : ¬r.Accepts address) (probeResult : Int) :
    deviceDriverRegister r (some address) probeResult = (-1, r) := by
  unfold Registry.Accepts at rejected
  simp only [deviceDriverRegister]
  by_cases invalid : (r.records address).name = none ∨
      deviceClassMax ≤ (r.records address).deviceClass
  · rw [if_pos invalid]
  · obtain ⟨named, exists_⟩ := not_or.mp invalid
    rw [if_neg invalid, if_pos (Nat.not_lt.mp fun room => rejected ⟨named, by omega, room⟩)]

/-- An accepted driver takes its slot and ends `READY`, or `ERROR` with the probe's result when
its probe fails. -/
theorem deviceDriverRegister_of_accepts {r : Registry} {address : Nat}
    (accepts : r.Accepts address) (probeResult : Int) :
    deviceDriverRegister r (some address) probeResult =
      if (r.records address).hasProbe ∧ probeResult ≠ 0 then
        (probeResult, (((r.append (r.records address).deviceClass address).setState address
          .initializing).setState address .error))
      else
        (0, (((r.append (r.records address).deviceClass address).setState address
          .initializing).setState address .ready)) := by
  obtain ⟨named, exists_, room⟩ := accepts
  simp only [deviceDriverRegister]
  rw [if_neg (not_or.mpr ⟨named, Nat.not_le.mpr exists_⟩), if_neg (Nat.not_le.mpr room)]
  by_cases probe : (r.records address).hasProbe <;> by_cases zero : probeResult = 0 <;>
    simp [probe, zero]

theorem row_append (r : Registry) (c address other : Nat) :
    (r.append c address).row other =
      if c = other then r.row other ++ [some address] else r.row other := by
  split
  · rename_i same
    subst same
    simp only [Registry.append, Registry.row, Function.update_same, List.range_succ,
      List.map_append, List.map_cons, List.map_nil]
    congr 1
    apply List.map_congr_left
    intro i mem
    exact Function.update_noteq (List.mem_range.mp mem).ne _ _
  · rename_i apart
    simp [Registry.append, Registry.row, Function.update_noteq (Ne.symm apart)]

/-- Registering appends the driver to its class's row when the registry accepts it, whatever its
probe returns, and changes no other row. -/
theorem row_register (r : Registry) (address : Nat) (probeResult : Int) (c : Nat) :
    (deviceDriverRegister r (some address) probeResult).2.row c =
      if r.Accepts address ∧ (r.records address).deviceClass = c then r.row c ++ [some address]
      else r.row c := by
  by_cases accepts : r.Accepts address
  · rw [deviceDriverRegister_of_accepts accepts]
    simp only [accepts, true_and]
    split <;> simp [row_append]
  · simp [deviceDriverRegister_of_not_accepts accepts, accepts]

theorem deviceDriverUnregister_of_missing {r : Registry} {address : Nat}
    (missing : findSlot r (r.records address).deviceClass address = none) :
    deviceDriverUnregister r (some address) = (-1, r) := by
  simp only [deviceDriverUnregister, missing]
  split <;> rfl

theorem deviceDriverUnregister_of_found {r : Registry} {address i : Nat}
    (exists_ : (r.records address).deviceClass < deviceClassMax)
    (found : findSlot r (r.records address).deviceClass address = some i) :
    deviceDriverUnregister r (some address) =
      (0, { r.setState address .unloaded with
        drivers := Function.update r.drivers (r.records address).deviceClass
          (shiftDown (r.drivers (r.records address).deviceClass) i
            (r.driverCount (r.records address).deviceClass - 1 - i))
        driverCount := Function.update r.driverCount (r.records address).deviceClass
          (r.driverCount (r.records address).deviceClass - 1) }) := by
  simp only [deviceDriverUnregister, found, if_neg (Nat.not_le.mpr exists_)]
  rfl

/-- Unregistering erases the driver's first occurrence from its class's row and changes no
other row. -/
theorem row_unregister (r : Registry) (address c : Nat) :
    (deviceDriverUnregister r (some address)).2.row c =
      if (r.records address).deviceClass = c ∧ c < deviceClassMax then
        (r.row c).erase (some address)
      else r.row c := by
  by_cases outside : deviceClassMax ≤ (r.records address).deviceClass
  · have : deviceDriverUnregister r (some address) = (-1, r) := by
      simp only [deviceDriverUnregister, if_pos outside]
    rw [this, if_neg (by omega)]
  cases found : findSlot r (r.records address).deviceClass address with
  | none =>
      rw [deviceDriverUnregister_of_missing found]
      split
      · rename_i same
        rw [← same.1, List.erase_of_not_mem (findSlot_eq_none.mp found)]
      · rfl
  | some i =>
      rw [deviceDriverUnregister_of_found (Nat.not_le.mp outside) found]
      split
      · rename_i same
        obtain ⟨rfl, -⟩ := same
        simp only [Registry.row, Function.update_same]
        exact row_shiftDown found
      · rename_i other
        have : (r.records address).deviceClass ≠ c := by omega
        simp [Registry.row, Function.update_noteq (Ne.symm this)]

@[simp] theorem append_records (r : Registry) (c address : Nat) :
    (r.append c address).records = r.records := rfl

/-- A driver record's name and class never change. -/
theorem register_records (r : Registry) (driver : Option Nat) (probeResult : Int) (other : Nat) :
    ((deviceDriverRegister r driver probeResult).2.records other).name = (r.records other).name ∧
      ((deviceDriverRegister r driver probeResult).2.records other).deviceClass =
        (r.records other).deviceClass := by
  cases driver with
  | none => exact ⟨rfl, rfl⟩
  | some address =>
      by_cases accepts : r.Accepts address
      · rw [deviceDriverRegister_of_accepts accepts]
        split <;> simp
      · rw [deviceDriverRegister_of_not_accepts accepts]
        exact ⟨rfl, rfl⟩

theorem unregister_records (r : Registry) (driver : Option Nat) (other : Nat) :
    ((deviceDriverUnregister r driver).2.records other).name = (r.records other).name ∧
      ((deviceDriverUnregister r driver).2.records other).deviceClass =
        (r.records other).deviceClass := by
  cases driver with
  | none => exact ⟨rfl, rfl⟩
  | some address =>
      by_cases outside : deviceClassMax ≤ (r.records address).deviceClass
      · have : deviceDriverUnregister r (some address) = (-1, r) := by
          simp only [deviceDriverUnregister, if_pos outside]
        rw [this]
        exact ⟨rfl, rfl⟩
      cases found : findSlot r (r.records address).deviceClass address with
      | none =>
          rw [deviceDriverUnregister_of_missing found]
          exact ⟨rfl, rfl⟩
      | some i =>
          rw [deviceDriverUnregister_of_found (Nat.not_le.mp outside) found]
          exact ⟨Registry.setState_name .., Registry.setState_deviceClass ..⟩

/-! ## The registry of lists -/

/-- A call on the registry. -/
inductive Call
  | register (driver : Option Nat) (probeResult : Int)
  | unregister (driver : Option Nat)

def Registry.step (r : Registry) : Call → Registry
  | .register driver probeResult => (deviceDriverRegister r driver probeResult).2
  | .unregister driver => (deviceDriverUnregister r driver).2

def Registry.run (r : Registry) : List Call → Registry
  | [] => r
  | call :: calls => (r.step call).run calls

/-- The registry as one list of drivers per class: registering appends a driver with a name to
its class's list while the list has room, unregistering erases the driver's first occurrence.
`names` and `classes` are the drivers' names and classes. -/
def listsStep (names : Nat → Option (List UInt8)) (classes : Nat → Nat) (lists : Nat → List Nat) :
    Call → Nat → List Nat
  | .register none _ => lists
  | .register (some address) _ =>
      if names address ≠ none ∧ classes address < deviceClassMax ∧
          (lists (classes address)).length < maxDriversPerClass then
        Function.update lists (classes address) (lists (classes address) ++ [address])
      else lists
  | .unregister none => lists
  | .unregister (some address) =>
      if classes address < deviceClassMax then
        Function.update lists (classes address) ((lists (classes address)).erase address)
      else lists

def listsRun (names : Nat → Option (List UInt8)) (classes : Nat → Nat) :
    (Nat → List Nat) → List Call → Nat → List Nat
  | lists, [] => lists
  | lists, call :: calls => listsRun names classes (listsStep names classes lists call) calls

theorem step_records (r : Registry) (call : Call) (other : Nat) :
    ((r.step call).records other).name = (r.records other).name ∧
      ((r.step call).records other).deviceClass = (r.records other).deviceClass := by
  cases call with
  | register driver probeResult => exact register_records r driver probeResult other
  | unregister driver => exact unregister_records r driver other

theorem erase_map_some (drivers : List Nat) (address : Nat) :
    (drivers.map some).erase (some address) = (drivers.erase address).map some := by
  induction drivers with
  | nil => rfl
  | cons driver drivers ih =>
      by_cases same : driver = address
      · subst same
        simp
      · simp [List.erase_cons, same, ih]

/-- One call keeps every row the list of its class. -/
theorem step_rows {r : Registry} {lists : Nat → List Nat} (rows : ∀ c, r.row c = (lists c).map some)
    (call : Call) (c : Nat) :
    (r.step call).row c =
      (listsStep (fun a => (r.records a).name) (fun a => (r.records a).deviceClass) lists call c).map
        some := by
  have counts : ∀ c, r.driverCount c = (lists c).length := fun c => by
    simpa using congrArg List.length (rows c)
  cases call with
  | register driver probeResult =>
      cases driver with
      | none => exact rows c
      | some address =>
          simp only [Registry.step, row_register, listsStep]
          have accepts_iff : r.Accepts address ↔ ((r.records address).name ≠ none ∧
              (r.records address).deviceClass < deviceClassMax ∧
                (lists (r.records address).deviceClass).length < maxDriversPerClass) := by
            simp [Registry.Accepts, counts]
          by_cases accepts : r.Accepts address
          · rw [if_pos (accepts_iff.mp accepts)]
            by_cases same : (r.records address).deviceClass = c
            · subst same
              simp [accepts, rows]
            · simp [accepts, same, rows, Function.update_noteq (Ne.symm same)]
          · rw [if_neg (mt accepts_iff.mpr accepts)]
            simp [accepts, rows]
  | unregister driver =>
      cases driver with
      | none => exact rows c
      | some address =>
          simp only [Registry.step, row_unregister, listsStep]
          by_cases exists_ : (r.records address).deviceClass < deviceClassMax
          · rw [if_pos exists_]
            by_cases same : (r.records address).deviceClass = c
            · subst same
              simp only [exists_, and_self, if_true, rows, Function.update_same, erase_map_some]
            · simp [same, rows, Function.update_noteq (Ne.symm same)]
          · rw [if_neg exists_, if_neg (by omega)]
            exact rows c

theorem run_records (r : Registry) (calls : List Call) (other : Nat) :
    ((r.run calls).records other).name = (r.records other).name ∧
      ((r.run calls).records other).deviceClass = (r.records other).deviceClass := by
  induction calls generalizing r with
  | nil => exact ⟨rfl, rfl⟩
  | cons call calls ih =>
      obtain ⟨name, deviceClass⟩ := ih (r.step call)
      exact ⟨name.trans (step_records r call other).1,
        deviceClass.trans (step_records r call other).2⟩

/-- Every run keeps every row the list of its class. -/
theorem run_rows {r : Registry} {lists : Nat → List Nat} (rows : ∀ c, r.row c = (lists c).map some)
    (calls : List Call) (c : Nat) :
    (r.run calls).row c =
      (listsRun (fun a => (r.records a).name) (fun a => (r.records a).deviceClass) lists calls
        c).map some := by
  induction calls generalizing r lists with
  | nil => exact rows c
  | cons call calls ih =>
      have names : (fun a => ((r.step call).records a).name) = fun a => (r.records a).name :=
        funext fun a => (step_records r call a).1
      have classes : (fun a => ((r.step call).records a).deviceClass) =
          fun a => (r.records a).deviceClass :=
        funext fun a => (step_records r call a).2
      have := ih (r := r.step call) (step_rows rows call)
      rwa [names, classes] at this

/-- A class outside the enumeration never gets a driver. -/
theorem listsRun_outside (names : Nat → Option (List UInt8)) (classes : Nat → Nat)
    {lists : Nat → List Nat} {c : Nat} (outside : deviceClassMax ≤ c) (empty : lists c = [])
    (calls : List Call) : listsRun names classes lists calls c = [] := by
  induction calls generalizing lists with
  | nil => exact empty
  | cons call calls ih =>
      apply ih
      cases call with
      | register driver _ =>
          cases driver with
          | none => exact empty
          | some address =>
              simp only [listsStep]
              split
              · rename_i accepted
                rw [Function.update_noteq (by omega)]
                exact empty
              · exact empty
      | unregister driver =>
          cases driver with
          | none => exact empty
          | some address =>
              simp only [listsStep]
              split
              · rename_i inside
                rw [Function.update_noteq (by omega)]
                exact empty
              · exact empty

/-- The search of `device_driver_find` over a row is `List.find?` over its list. -/
theorem findSome_row (drivers : List Nat) (matches_ : Nat → Bool) :
    (drivers.map some).findSome?
        (fun slot => match slot with
          | some driver => if matches_ driver then some driver else none
          | none => none) =
      drivers.find? matches_ := by
  induction drivers with
  | nil => rfl
  | cons driver drivers ih =>
      by_cases hit : matches_ driver <;> simp [hit, ih]

theorem deviceDriverFind_eq {r : Registry} {lists : Nat → List Nat}
    (rows : ∀ c, r.row c = (lists c).map some) (outside : ∀ c, deviceClassMax ≤ c → lists c = [])
    (name : List UInt8) (c : Nat) :
    deviceDriverFind r (some name) c =
      (lists c).find? fun driver => strcmp (r.records driver).name (some name) = 0 := by
  unfold deviceDriverFind
  by_cases inside : deviceClassMax ≤ c
  · rw [if_pos (.inr inside), outside c inside]
    rfl
  · rw [if_neg (by simp [inside])]
    have := findSome_row (lists c) fun driver => strcmp (r.records driver).name (some name) = 0
    rw [← rows c, Registry.row, List.findSome?_map] at this
    simpa only [decide_eq_true_eq] using this

/-- The registry, from the state `device_driver_init` leaves and over every sequence of
registrations and unregistrations, holds per class the list that appending each accepted driver
(whatever its probe returns) and erasing each unregistered driver's first occurrence builds;
`device_driver_find` is `List.find?` on that list and `device_driver_enumerate` walks it. -/
theorem initial_run_refines (records : Nat → DeviceDriver) (calls : List Call) (c : Nat)
    (name : List UInt8) (callback : Nat → Int) :
    let lists := listsRun (fun a => (records a).name) (fun a => (records a).deviceClass)
      (fun _ => []) calls
    let r := (Registry.initial records).run calls
    r.row c = (lists c).map some ∧
      deviceDriverFind r (some name) c =
        (lists c).find? (fun driver => strcmp (records driver).name (some name) = 0) ∧
      deviceDriverEnumerate r c (some callback) =
        if c < deviceClassMax then
          (((lists c).takeWhile fun driver => callback driver = 0).length : Int)
        else -1 := by
  intro lists r
  have rows : ∀ c, r.row c = (lists c).map some :=
    @run_rows (Registry.initial records) (fun _ => []) (fun _ => rfl) calls
  refine ⟨rows c, ?_, ?_⟩
  · have names : ∀ driver, (r.records driver).name = (records driver).name := fun driver =>
      (run_records _ calls driver).1
    simp only [← names]
    exact deviceDriverFind_eq rows (fun c outside => listsRun_outside _ _ outside rfl calls) name c
  · by_cases inside : c < deviceClassMax
    · have := congrArg (List.filterMap id) (rows c)
      simp only [Registry.row, List.filterMap_map, Function.id_comp, List.filterMap_some] at this
      simp only [deviceDriverEnumerate, if_neg (Nat.not_le.mpr inside), if_pos inside, this]
    · simp only [deviceDriverEnumerate, if_pos (Nat.not_lt.mp inside), if_neg inside]

/-- A driver whose probe fails: `device_driver_register` returns the probe's error, yet the driver
stays registered, in state `DRIVER_STATE_ERROR`, and `device_driver_find` returns it. -/
example :
    let records : Nat → DeviceDriver := fun _ => ⟨some [97], 1, .unloaded, true, false⟩
    let r := (Registry.initial records).run [.register (some 5) (-19)]
    (deviceDriverRegister (Registry.initial records) (some 5) (-19)).1 = -19 ∧
      deviceDriverFind r (some [97]) 1 = some 5 ∧ (r.records 5).state = .error := by
  decide

end FreeCore.Drivers
