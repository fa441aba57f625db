import Evse.Fs.Lfs

/-!
# The directories above a file

`create_directory` looks for the end of one component after the other and makes the directory that ends there. The number of characters up to a component, and the position in the path, are kept apart but agree at the beginning of every component.
-/

namespace Evse.Lfs

open CString Environment

/-- Components with single slashes between them. -/
def joined (components : List Text) : Text := [slash].intercalate components

/-- The proper ancestors of the last component, the topmost one first. -/
def ancestors (components : List Text) : List Text :=
  (List.range (components.length - 1)).map fun k => joined (components.take (k + 1))

/-- A component has characters, and no slash among them. -/
def IsComponent (component : Text) : Prop := component ≠ [] ∧ slash ∉ component

instance (component : Text) : Decidable (IsComponent component) := inferInstanceAs (Decidable (_ ∧ _))

/-- The answers that `create_directory` gives up at. -/
def givesUp (err : Int) : Bool := err ≠ 0 ∧ err ≠ LFS_ERR_EXIST

theorem joined_cons_cons (component next : Text) (components : List Text) :
    joined (component :: next :: components) = component ++ slash :: joined (next :: components) := by
  rw [joined, List.intercalate_cons_cons, ← joined, List.append_assoc]
  rfl

/-! ### Scanning -/

theorem slashFrom_append {component : Text} (h : slash ∉ component) (i : Nat) (rest : Text) :
    slashFrom i (component ++ slash :: rest) = i + component.length := by
  induction component generalizing i with
  | nil => exact if_pos rfl
  | cons c component ih =>
      rw [List.mem_cons, not_or] at h
      rw [List.cons_append, slashFrom, if_neg (Ne.symm h.1), ih h.2, List.length_cons]
      omega

theorem slashFrom_eq_zero {text : Text} (h : slash ∉ text) (i : Nat) : slashFrom i text = 0 := by
  induction text generalizing i with
  | nil => rfl
  | cons c text ih =>
      rw [List.mem_cons, not_or] at h
      rw [slashFrom, if_neg (Ne.symm h.1), ih h.2]

theorem skipLeadingSlashes_replicate (n : Nat) {path : Text} (h : ∀ c ∈ path.head?, c ≠ slash) :
    skipLeadingSlashes (List.replicate n slash ++ path) = path := by
  induction n with
  | zero =>
      cases path with
      | nil => rfl
      | cons c path => exact if_neg (h c rfl)
  | succ n ih =>
      rw [List.replicate_succ, List.cons_append, skipLeadingSlashes, if_pos rfl]
      exact ih

section Loop

variable (lfs : Log → Call → Int) (p : Text)

/-- The last component is walked through without a call. -/
theorem createDirectories_of_not_mem {rest : Text} (h : slash ∉ rest) (rounds offset : Nat) (log : Log) :
    createDirectories lfs p rounds rest offset log = (0, log) := by
  induction rounds generalizing rest with
  | zero => rfl
  | succ rounds ih =>
      cases rest with
      | nil => rfl
      | cons c rest =>
          rw [createDirectories, findDirTraillingSlash, slashFrom_eq_zero h]
          exact ih fun hmem => h (List.mem_cons_of_mem c hmem)

/-- One component that is not the last. -/
theorem createDirectories_component {component : Text} (h : IsComponent component) (rest : Text) (rounds offset : Nat)
    (log : Log) :
    createDirectories lfs p (rounds + 1) (component ++ slash :: rest) offset log =
      let made := ask lfs (.mkdir (p.take (min (offset + component.length) fsFilenameMax))) log
      if givesUp made.1 then made
      else createDirectories lfs p rounds rest (offset + component.length + 1) made.2 := by
  obtain ⟨hne, hslash⟩ := h
  cases component with
  | nil => exact absurd rfl hne
  | cons c component =>
      have hfound : findDirTraillingSlash (c :: (component ++ slash :: rest)) = component.length + 1 := by
        have hscan := slashFrom_append hslash 0 rest
        rw [Nat.zero_add, List.length_cons] at hscan
        exact hscan
      have hdrop : (component ++ slash :: rest).drop (component.length + 1) = rest := by
        rw [List.drop_append, List.drop_of_length_le (Nat.le_succ _), Nat.add_sub_cancel_left]
        rfl
      rw [List.cons_append, createDirectories, hfound, if_neg (Nat.succ_ne_zero _), hdrop, List.length_cons]
      simp only [givesUp, Bool.decide_and, Bool.and_eq_true, decide_eq_true_eq]

/-- The directories of `components` under those of `above`, which ends in a slash unless it is empty. -/
def directoriesFrom (above : Text) : List Text → List Text
  | component :: next :: components =>
      (above ++ component) :: directoriesFrom (above ++ component ++ [slash]) (next :: components)
  | _ => []

theorem directoriesFrom_eq (above : Text) (components : List Text) :
    directoriesFrom above components =
      (List.range (components.length - 1)).map fun k => above ++ joined (components.take (k + 1)) := by
  induction components generalizing above with
  | nil => rfl
  | cons component components ih =>
      cases components with
      | nil => rfl
      | cons next components =>
          have hlength : (component :: next :: components).length - 1 = components.length + 1 := rfl
          rw [directoriesFrom, ih, hlength, List.range_succ_eq_map, List.map_cons, List.map_map]
          congr 1
          · rw [List.take_succ_cons, List.take_zero, joined, List.intercalate_singleton]
          · apply List.map_congr_left
            intro k _
            simp only [Function.comp_apply, List.take_succ_cons, joined_cons_cons, List.append_assoc, List.cons_append,
              List.nil_append]

/-- From the beginning of a component, the rest of the loop makes the rest of the directories. -/
theorem createDirectories_eq {components : List Text} (h : ∀ component ∈ components, IsComponent component)
    (above : Text) (hp : p = above ++ joined components) (hsize : p.length ≤ fsFilenameMax) {rounds : Nat}
    (hrounds : (joined components).length ≤ rounds) (log : Log) :
    createDirectories lfs p rounds (joined components) above.length log =
      let made := askUntil lfs givesUp ((directoriesFrom above components).map .mkdir) log
      (made.1.getD 0, made.2) := by
  induction components generalizing above rounds log with
  | nil => exact createDirectories_of_not_mem lfs p List.not_mem_nil _ _ _
  | cons component components ih =>
      rw [List.forall_mem_cons] at h
      cases components with
      | nil =>
          have hlast : slash ∉ joined [component] := by
            rw [joined, List.intercalate_singleton]
            exact h.1.2
          exact createDirectories_of_not_mem lfs p hlast _ _ _
      | cons next components =>
          rw [joined_cons_cons] at hp hrounds ⊢
          have hlength : above.length + component.length ≤ p.length := by
            rw [hp, List.length_append, List.length_append]
            omega
          have hdir : p.take (min (above.length + component.length) fsFilenameMax) = above ++ component := by
            rw [Nat.min_eq_left (hlength.trans hsize), hp, ← List.append_assoc, ← List.length_append,
              List.take_left]
          obtain ⟨rounds, rfl⟩ : ∃ n, rounds = n + 1 := by
            refine ⟨rounds - 1, ?_⟩
            rw [List.length_append, List.length_cons] at hrounds
            omega
          have hbehind : (joined (next :: components)).length ≤ rounds := by
            rw [List.length_append, List.length_cons] at hrounds
            omega
          have habove : above.length + component.length + 1 = (above ++ component ++ [slash]).length := by
            rw [List.length_append, List.length_append]
            rfl
          rw [createDirectories_component lfs p h.1, hdir, habove]
          simp only [directoriesFrom, List.map_cons, askUntil]
          split
          · rfl
          · exact ih h.2 _ (by rw [hp]; simp) hbehind _

end Loop

/-- The directories above a file are made from the topmost one down, until a call fails for another reason than that the directory is there. -/
theorem createDirectory_in_order (lfs : Log → Call → Int) {components : List Text}
    (h : ∀ component ∈ components, IsComponent component) (hsize : (joined components).length ≤ fsFilenameMax)
    (leading : Nat) (log : Log) :
    ∃ result, InOrder givesUp ((ancestors components).map .mkdir) log result ∧
      createDirectory lfs (List.replicate leading slash ++ joined components) log = (result.1.getD 0, result.2) := by
  have hhead : ∀ c ∈ (joined components).head?, c ≠ slash := by
    cases components with
    | nil => exact fun c hc => absurd hc (by simp [joined])
    | cons component components =>
        obtain ⟨hne, hslash⟩ := h component List.mem_cons_self
        cases component with
        | nil => exact absurd rfl hne
        | cons x component =>
            intro c hc heq
            rw [joined, List.intercalate_cons_cons_left, List.head?_cons, Option.mem_some_iff] at hc
            rw [hc, heq] at hslash
            exact hslash List.mem_cons_self
  refine ⟨_, inOrder_askUntil lfs _ log, ?_⟩
  rw [createDirectory, skipLeadingSlashes_replicate leading hhead]
  have hloop := createDirectories_eq lfs (joined components) h [] rfl hsize (Nat.le_refl _) log
  rw [directoriesFrom_eq] at hloop
  exact hloop

def nested : List Text := [ascii "logs", ascii "2024", ascii "06"]

theorem createDirectory_of_nested :
    ∃ result, InOrder givesUp ((ancestors nested).map .mkdir) [] result ∧
      createDirectory (fun _ _ => LFS_ERR_EXIST) (List.replicate 2 slash ++ joined nested) [] =
        (result.1.getD 0, result.2) :=
  createDirectory_in_order (fun _ _ => LFS_ERR_EXIST) (by decide) (by decide) 2 []

example : createDirectory (fun log _ => -28 * log.length) (ascii "/logs/2024/06/01") [] =
    (-28, [(.mkdir (ascii "logs"), 0), (.mkdir (ascii "logs/2024"), -28)]) := by decide

end Evse.Lfs
