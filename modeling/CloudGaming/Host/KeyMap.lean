import CloudGaming.Host.InputSchema
/-!
# KeyMap — the key codes of a browser and the virtual keys of Windows
-/
namespace CloudGaming
namespace Host
namespace KeyInput

def VK_BACK := 0x08
def VK_TAB := 0x09
def VK_RETURN := 0x0D
def VK_ESCAPE := 0x1B
def VK_F4 := 0x73
def VK_LCONTROL := 0xA2
def VK_RCONTROL := 0xA3
def VK_LMENU := 0xA4
def VK_RMENU := 0xA5

def vkMap : List (String × Nat) :=
  -- letters
  [("KeyA", 0x41), ("KeyB", 0x42), ("KeyC", 0x43), ("KeyD", 0x44), ("KeyE", 0x45), ("KeyF", 0x46), ("KeyG", 0x47),
    ("KeyH", 0x48), ("KeyI", 0x49), ("KeyJ", 0x4A), ("KeyK", 0x4B), ("KeyL", 0x4C), ("KeyM", 0x4D), ("KeyN", 0x4E),
    ("KeyO", 0x4F), ("KeyP", 0x50), ("KeyQ", 0x51), ("KeyR", 0x52), ("KeyS", 0x53), ("KeyT", 0x54), ("KeyU", 0x55),
    ("KeyV", 0x56), ("KeyW", 0x57), ("KeyX", 0x58), ("KeyY", 0x59), ("KeyZ", 0x5A),
    -- numbers
    ("Digit1", 0x31), ("Digit2", 0x32), ("Digit3", 0x33), ("Digit4", 0x34), ("Digit5", 0x35), ("Digit6", 0x36),
    ("Digit7", 0x37), ("Digit8", 0x38), ("Digit9", 0x39), ("Digit0", 0x30),
    -- numpad
    ("Numpad1", 0x61), ("Numpad2", 0x62), ("Numpad3", 0x63), ("Numpad4", 0x64), ("Numpad5", 0x65), ("Numpad6", 0x66),
    ("Numpad7", 0x67), ("Numpad8", 0x68), ("Numpad9", 0x69), ("Numpad0", 0x60), ("NumpadDecimal", 0x6E),
    ("NumpadAdd", 0x6B), ("NumpadSubtract", 0x6D), ("NumpadMultiply", 0x6A), ("NumpadDivide", 0x6F),
    -- function keys
    ("F1", 0x70), ("F2", 0x71), ("F3", 0x72), ("F4", VK_F4), ("F5", 0x74), ("F6", 0x75), ("F7", 0x76), ("F8", 0x77),
    ("F9", 0x78), ("F10", 0x79), ("F11", 0x7A), ("F12", 0x7B),
    -- arrows
    ("ArrowUp", 0x26), ("ArrowDown", 0x28), ("ArrowLeft", 0x25), ("ArrowRight", 0x27),
    -- modifiers
    ("ShiftLeft", 0xA0), ("ShiftRight", 0xA1), ("ControlLeft", VK_LCONTROL), ("ControlRight", VK_RCONTROL),
    ("AltLeft", VK_LMENU), ("AltRight", VK_RMENU),
    -- other keys
    ("Enter", VK_RETURN), ("NumpadEnter", VK_RETURN), ("Escape", VK_ESCAPE), ("Tab", VK_TAB), ("Space", 0x20),
    ("Backspace", VK_BACK), ("Delete", 0x2E), ("Home", 0x24), ("End", 0x23), ("PageUp", 0x21), ("PageDown", 0x22),
    ("CapsLock", 0x14), ("NumLock", 0x90), ("ScrollLock", 0x91), ("Insert", 0x2D), ("ContextMenu", 0x5D),
    ("MetaLeft", 0x5B), ("MetaRight", 0x5C),
    -- punctuation
    ("Backquote", 0xC0), ("Minus", 0xBD), ("Equal", 0xBB), ("BracketLeft", 0xDB), ("BracketRight", 0xDD),
    ("Backslash", 0xDC), ("Semicolon", 0xBA), ("Quote", 0xDE), ("Comma", 0xBC), ("Period", 0xBE), ("Slash", 0xBF)]

/-- `MapJavaScriptCodeToVK`; zero where nothing is mapped. -/
def mapJavaScriptCodeToVK (jsCode : String) : Nat := (vkMap.lookup jsCode).getD 0

/-- The Windows keys are never injected. -/
def shouldBlockKey (jsCode : String) : Bool :=
  jsCode ∈ ["MetaLeft", "MetaRight", "Meta", "OSLeft", "OSRight", "OS", "Super_L", "Super_R", "Super"]

def isSupportedKeyCode (jsCode : String) : Bool := (vkMap.lookup jsCode).isSome && !shouldBlockKey jsCode

theorem mem_of_lookup {c : String} {v : Nat} (h : vkMap.lookup c = some v) : (c, v) ∈ vkMap := by
  obtain ⟨l₁, l₂, hl, -⟩ := List.lookup_eq_some_iff.1 h
  exact hl ▸ List.mem_append_right l₁ List.mem_cons_self

theorem mem_vkMap {jsCode : String} (h : mapJavaScriptCodeToVK jsCode ≠ 0) :
    (jsCode, mapJavaScriptCodeToVK jsCode) ∈ vkMap := by
  unfold mapJavaScriptCodeToVK at h ⊢
  cases hl : vkMap.lookup jsCode with
  | none => rw [hl] at h; exact absurd rfl h
  | some v => exact mem_of_lookup hl

/-- **Only the two Enter keys share a virtual key.** -/
theorem code_unique {c d : String} (h : mapJavaScriptCodeToVK c = mapJavaScriptCodeToVK d)
    (hc : mapJavaScriptCodeToVK c ≠ 0) (hr : mapJavaScriptCodeToVK c ≠ VK_RETURN) : c = d := by
  have hall : ∀ p ∈ vkMap, ∀ q ∈ vkMap, p.2 = q.2 → p.2 ≠ VK_RETURN → p.1 = q.1 := by decide +kernel
  exact hall _ (mem_vkMap hc) _ (mem_vkMap (h ▸ hc)) h hr

/-- A supported code has a virtual key. -/
theorem vk_of_supported {c : String} (h : isSupportedKeyCode c = true) : mapJavaScriptCodeToVK c ≠ 0 := by
  have hall : ∀ p ∈ vkMap, p.2 ≠ 0 := by decide +kernel
  unfold isSupportedKeyCode at h
  unfold mapJavaScriptCodeToVK
  cases hl : vkMap.lookup c with
  | none => rw [hl] at h; cases h
  | some v => exact hall _ (mem_of_lookup hl)

end KeyInput
end Host
end CloudGaming
