import ReportTheme.Palette

/-!
The palettes that come with the library.
-/
namespace ReportTheme

inductive ColorPreset where
  | default
  | ocean
  | sunset
  deriving DecidableEq, Repr

namespace ColorPreset

def all : List ColorPreset := [.default, .ocean, .sunset]

def id : ColorPreset → String
  | .default => "default"
  | .ocean => "ocean"
  | .sunset => "sunset"

def displayName : ColorPreset → String
  | .default => "Default"
  | .ocean => "Ocean"
  | .sunset => "Sunset"

def colors : ColorPreset → List String
  | .default =>
    ["#118DFF", "#12239E", "#E66C37", "#6B007B", "#E044A7", "#744EC2", "#D9B300", "#D64550"]
  | .ocean =>
    ["#0EA5E9", "#0369A1", "#14B8A6", "#0F766E", "#6366F1", "#38BDF8", "#2DD4BF", "#1E3A8A"]
  | .sunset =>
    ["#F97316", "#DC2626", "#F59E0B", "#BE185D", "#EA580C", "#FB7185", "#FBBF24", "#7C2D12"]

def palette (p : ColorPreset) : Palette := ⟨p.id, p.displayName, p.colors, true⟩

end ColorPreset

inductive NeutralPreset where
  | gray
  | slate
  | zinc
  | neutral
  deriving DecidableEq, Repr

namespace NeutralPreset

def all : List NeutralPreset := [.gray, .slate, .zinc, .neutral]

def id : NeutralPreset → String
  | .gray => "neutral-gray"
  | .slate => "slate"
  | .zinc => "zinc"
  | .neutral => "neutral"

def displayName : NeutralPreset → String
  | .gray => "Neutral Gray"
  | .slate => "Slate"
  | .zinc => "Zinc"
  | .neutral => "Neutral"

def colors : NeutralPreset → List String
  | .gray =>
    ["#FFFFFF", "#FAF9F8", "#F3F2F1", "#E1DFDD", "#C8C6C4", "#A19F9D", "#797775", "#605E5C",
      "#3B3A39", "#323130", "#252423", "#11100F"]
  | .slate =>
    ["#FFFFFF", "#F8FAFC", "#F1F5F9", "#E2E8F0", "#CBD5E1", "#94A3B8", "#64748B", "#475569",
      "#334155", "#1E293B", "#0F172A", "#020817"]
  | .zinc =>
    ["#FFFFFF", "#FAFAFA", "#F4F4F5", "#E4E4E7", "#D4D4D8", "#A1A1AA", "#71717A", "#52525B",
      "#3F3F46", "#27272A", "#18181B", "#09090B"]
  | .neutral =>
    ["#FFFFFF", "#FAFAFA", "#F5F5F5", "#E5E5E5", "#D4D4D4", "#A3A3A3", "#737373", "#525252",
      "#404040", "#262626", "#171717", "#0A0A0A"]

def palette (p : NeutralPreset) : Palette := ⟨p.id, p.displayName, p.colors, true⟩

end NeutralPreset

end ReportTheme
