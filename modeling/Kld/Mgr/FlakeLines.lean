import Kld.Mgr.Flake

/-!
# The hosts that the flake names

A host is named by the line that starts its configuration. The text of a module stands
between quotation marks as it is, so it may have lines of its own.
-/

namespace Kld.Cluster

open Kld.Config

section Lines

variable {name : String} {m : String} {hosts : List (String × Host)}

def lines (s : String) : List (List Char) := s.toList.splitOn '\n'

def opening (name : String) : List Char :=
  headingStart.toList ++ name.toList ++ ['"', ' ', '=']

/-- A line that starts the configuration of a host. -/
def namesHost (name : String) (line : List Char) : Bool := (opening name).isPrefixOf line

theorem lines_intercalate {parts : List String} (hParts : parts ≠ []) :
    lines ("\n".intercalate parts) = parts.flatMap lines :=
  @Utf8.splitOn_intercalate_flatMap '\n' parts hParts

theorem lines_append {front : String} (hFront : '\n' ∉ front.toList) (s : String) :
    lines (front ++ s) = (lines s).modifyHead (front.toList ++ ·) := by
  rw [lines, String.toList_append, lines]
  generalize front.toList = front at hFront
  induction front with
  | nil => cases hLines : s.toList.splitOn '\n' <;> simp [hLines]
  | cons c front ih =>
    rw [List.mem_cons, not_or] at hFront
    rw [List.cons_append, List.splitOn_cons_eq_if_modifyHead,
      if_neg (by simpa using Ne.symm hFront.1), ih hFront.2, List.modifyHead_modifyHead]
    rfl

/-- A quotation mark ends the last line. -/
theorem lines_quote (s : String) :
    ∃ init last, lines s = init ++ [last] ∧ lines (s ++ "\"") = init ++ [last ++ ['"']] := by
  have hQuote : "\"".toList = ['"'] := rfl
  rw [lines, lines, String.toList_append, hQuote]
  induction s.toList with
  | nil => exact ⟨[], [], rfl, List.splitOn_eq_singleton (by decide)⟩
  | cons d cs ih =>
    obtain ⟨init, last, hLines, hQuoted⟩ := ih
    rw [List.cons_append, List.splitOn_cons_eq_if_modifyHead, List.splitOn_cons_eq_if_modifyHead,
      hLines, hQuoted]
    split
    · exact ⟨[] :: init, last, rfl, rfl⟩
    · cases init with
      | nil => exact ⟨[], d :: last, rfl, rfl⟩
      | cons line init => exact ⟨(d :: line) :: init, last, rfl, rfl⟩

theorem namesHost_indented (name : String) (rest : List Char) :
    namesHost name (' ' :: ' ' :: ' ' :: rest) = false := rfl

theorem namesHost_iff {line : List Char} : namesHost name line = true ↔ opening name <+: line :=
  List.isPrefixOf_iff_prefix

theorem namesHost_quote (name : String) (line : List Char) :
    namesHost name (line ++ ['"']) = namesHost name line := by
  rw [Bool.eq_iff_iff, namesHost_iff, namesHost_iff, List.prefix_concat_iff]
  refine or_iff_right fun hEq => ?_
  have hSplit : headingStart.toList ++ name.toList ++ ['"', ' '] ++ ['='] = line ++ ['"'] :=
    (List.append_assoc ..).trans hEq
  cases (List.append_inj' hSplit rfl).2

theorem countP_quoted {front : String} (hFront : '\n' ∉ front.toList)
    (hFirst : ∀ line, namesHost name (front.toList ++ line) = false) (m : String) :
    (lines (front ++ (m ++ "\""))).countP (namesHost name) =
      (lines m).tail.countP (namesHost name) := by
  obtain ⟨init, last, hLines, hQuoted⟩ := lines_quote m
  rw [lines_append hFront, hQuoted, hLines]
  cases init with
  | nil => simp [hFirst]
  | cons line init => simp [hFirst, List.countP_cons, namesHost_quote]

theorem countP_moduleLine (name m : String) :
    (lines (moduleLine m)).countP (namesHost name) = (lines m).tail.countP (namesHost name) := by
  have hFront : '\n' ∉ moduleStart.toList := by decide +kernel
  rw [moduleLine, String.append_assoc]
  exact countP_quoted hFront (fun line => namesHost_indented name _) m

theorem notMem_name {c : Char} (hName : hostnameRegex name = true)
    (hc : ¬ (('a' ≤ c ∧ c ≤ 'z') ∨ ('0' ≤ c ∧ c ≤ '9') ∨ c = '-')) : c ∉ name.toList :=
  fun hMem => hc ((hostName_of_regex hName).chars c hMem)

theorem eq_of_append_cons {c : Char} {xs ys as bs : List Char} (hx : c ∉ xs) (hy : c ∉ ys)
    (h : xs ++ c :: as = ys ++ c :: bs) : xs = ys := by
  have hIdx := congrArg (List.idxOf c) h
  rw [List.idxOf_append_of_notMem hx, List.idxOf_append_of_notMem hy, List.idxOf_cons_self,
    List.idxOf_cons_self] at hIdx
  exact (List.append_inj h hIdx).1

theorem headingEnd_chars : ∃ tail, headingEnd.toList = '"' :: ' ' :: '=' :: tail := ⟨_, rfl⟩

theorem namesHost_heading {other : String} (hName : hostnameRegex name = true)
    (hOther : hostnameRegex other = true) :
    namesHost name (heading other).toList = decide (other = name) := by
  have hQuote {n : String} (h : hostnameRegex n = true) : '"' ∉ n.toList :=
    notMem_name h (by decide)
  obtain ⟨tail, hEnd⟩ := headingEnd_chars
  rw [Bool.eq_iff_iff, namesHost_iff, heading, decide_eq_true_iff, opening, String.append_assoc,
    String.toList_append, String.toList_append, List.append_assoc, List.prefix_append_right_inj,
    hEnd]
  constructor
  · rintro ⟨rest, hEq⟩
    rw [List.append_assoc] at hEq
    exact (String.toList_injective (eq_of_append_cons (hQuote hName) (hQuote hOther) hEq)).symm
  · rintro rfl
    exact ⟨tail, List.append_assoc ..⟩

theorem countP_line {line : String} (hLine : '\n' ∉ line.toList) :
    (lines line).countP (namesHost name) = if namesHost name line.toList then 1 else 0 := by
  rw [lines, List.splitOn_eq_singleton hLine, List.countP_singleton]

theorem countP_other {line : String} (hLine : '\n' ∉ line.toList)
    (hOther : namesHost name line.toList = false) :
    (lines line).countP (namesHost name) = 0 := by
  rw [countP_line hLine, hOther, if_neg Bool.false_ne_true]

theorem notMem_framed {front back s : String} (hFront : '\n' ∉ front.toList)
    (hBack : '\n' ∉ back.toList) (h : '\n' ∉ s.toList) : '\n' ∉ (front ++ s ++ back).toList := by
  rw [String.toList_append, String.toList_append, List.mem_append, List.mem_append]
  exact fun hMem => hMem.elim (fun hMem => hMem.elim hFront h) hBack

theorem deployConfigStart_chars : ∃ rest, deployConfigStart.toList = ' ' :: ' ' :: ' ' :: rest :=
  ⟨_, rfl⟩

theorem countP_intercalate {parts : List String} (hParts : parts ≠ []) :
    (lines ("\n".intercalate parts)).countP (namesHost name) =
      (parts.map fun part => (lines part).countP (namesHost name)).sum := by
  rw [lines_intercalate hParts, List.countP_flatMap]
  rfl

theorem countP_configuration {entry : String × Host} (hName : hostnameRegex name = true)
    (hEntry : hostnameRegex entry.1 = true) :
    (lines (configuration entry)).countP (namesHost name) =
      (if entry.1 = name then 1 else 0) +
        ((nixosModules entry.2).map fun m => (lines m).tail.countP (namesHost name)).sum := by
  have hNewline : '\n' ∉ entry.1.toList := notMem_name hEntry (by decide)
  have hHeading : (lines (heading entry.1)).countP (namesHost name) =
      if entry.1 = name then 1 else 0 := by
    rw [countP_line, namesHost_heading hName hEntry]
    · simp only [decide_eq_true_eq]
    · exact notMem_framed (by decide +kernel) (by decide +kernel) hNewline
  have hDeploy : (lines (deployConfig entry.1)).countP (namesHost name) = 0 := by
    apply countP_other
    · refine notMem_framed (s := nodePathStart ++ entry.1) (by decide +kernel)
        (by decide +kernel) ?_
      rw [String.toList_append, List.mem_append]
      exact fun hMem => hMem.elim (by decide +kernel) hNewline
    · obtain ⟨rest, hStart⟩ := deployConfigStart_chars
      rw [deployConfig, String.append_assoc, String.toList_append, hStart]
      exact namesHost_indented name _
  have hModules : (lines ("\n".intercalate ((nixosModules entry.2).map moduleLine))).countP
      (namesHost name) =
        ((nixosModules entry.2).map fun m => (lines m).tail.countP (namesHost name)).sum := by
    rw [countP_intercalate (by simp [nixosModules]), List.map_map]
    exact congrArg List.sum (List.map_congr_left fun m _ => countP_moduleLine name m)
  have hSystem : (lines "    system = \"x86_64-linux\";").countP (namesHost name) = 0 :=
    countP_other (by decide +kernel) rfl
  have hStart : (lines "    modules = [").countP (namesHost name) = 0 :=
    countP_other (by decide +kernel) rfl
  have hEnd : (lines "    ];").countP (namesHost name) = 0 := countP_other (by decide +kernel) rfl
  have hClose : (lines "  \x7d;").countP (namesHost name) = 0 :=
    countP_other (by decide +kernel) rfl
  rw [configuration, countP_intercalate (List.cons_ne_nil _ _)]
  simp only [List.map_cons, List.map_nil, List.sum_cons, List.sum_nil, hHeading, hDeploy, hModules,
    hSystem, hStart, hEnd, hClose, Nat.zero_add, Nat.add_zero]

theorem sum_map_count (f : String × Host → Nat) :
    (hosts.map fun entry => (if entry.1 = name then 1 else 0) + f entry).sum =
      (hosts.map Prod.fst).count name + (hosts.map f).sum := by
  induction hosts with
  | nil => rfl
  | cons entry hosts ih =>
    simp only [List.map_cons, List.sum_cons, ih, List.count_cons, beq_iff_eq]
    omega

/-- Every host is named once, and again where a module has a line like its heading. -/
theorem countP_configurationContent (hNodup : (hosts.map Prod.fst).Nodup)
    (hNames : ∀ entry ∈ hosts, hostnameRegex entry.1 = true) (hMem : name ∈ hosts.map Prod.fst) :
    (lines (configurationContent hosts)).countP (namesHost name) = 1 +
      (hosts.map fun entry =>
        ((nixosModules entry.2).map fun m => (lines m).tail.countP (namesHost name)).sum).sum := by
  obtain ⟨entry, hEntry, rfl⟩ := List.mem_map.mp hMem
  have hStart : (lines "\x7b lightning-knd, ... \x7d: \x7b").countP (namesHost entry.1) = 0 :=
    countP_other (by decide +kernel) rfl
  have hEnd : (lines "\x7d").countP (namesHost entry.1) = 0 :=
    countP_other (by decide +kernel) rfl
  have hLast : (lines "").countP (namesHost entry.1) = 0 := countP_other (by decide +kernel) rfl
  have hBlocks : (lines ("\n".intercalate (hosts.map configuration))).countP (namesHost entry.1) =
      1 + (hosts.map fun entry' => ((nixosModules entry'.2).map fun m =>
        (lines m).tail.countP (namesHost entry.1)).sum).sum := by
    have hNe : hosts.map configuration ≠ [] := by
      rw [Ne, List.map_eq_nil_iff]
      exact List.ne_nil_of_mem hEntry
    have hOne : (hosts.map Prod.fst).count entry.1 = 1 := List.count_eq_one_of_mem hNodup hMem
    have hEach : ∀ entry' ∈ hosts, (lines (configuration entry')).countP (namesHost entry.1) =
        (if entry'.1 = entry.1 then 1 else 0) + ((nixosModules entry'.2).map fun m =>
          (lines m).tail.countP (namesHost entry.1)).sum :=
      fun entry' hMem' => countP_configuration (hNames entry hEntry) (hNames entry' hMem')
    rw [countP_intercalate hNe, List.map_map, ← hOne, ← sum_map_count,
      ← List.map_congr_left hEach, Function.comp_def]
  rw [configurationContent, countP_intercalate (List.cons_ne_nil _ _)]
  simp only [List.map_cons, List.map_nil, List.sum_cons, List.sum_nil, hStart, hEnd, hLast, hBlocks,
    Nat.zero_add, Nat.add_zero]

end Lines

end Kld.Cluster
