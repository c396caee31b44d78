import ViewModifiers.Configuration.Basic

/-!
# The built-in configuration

What holds where no configuration is given, and what other configurations are
laid over unless they say otherwise.
-/

namespace ViewModifiers
namespace Configuration

/-- Operations that depend on the environment, on preferences, or on types without a decoder. -/
def builtinExcluded : List String :=
  ["environment", "environmentObject", "transformEnvironment", "preference",
    "onPreferenceChange", "transformPreference", "anchorPreference",
    "transformAnchorPreference", "onChange", "onReceive", "alignmentGuide", "layoutValue",
    "focusedObject", "focusedSceneObject", "focusedSceneValue", "focusedValue",
    "navigationDocument", "previewContext", "previewDevice", "previewInterfaceOrientation",
    "previewLayout", "accessibilityRotor", "toolbar", "accessibilityChartDescriptor",
    "accessibilityFocused", "accessibilityQuickAction", "alert", "containerRelativeFrame",
    "contextMenu", "controlGroupStyle", "copyable", "cuttable", "datePickerStyle",
    "defaultFocus", "digitalCrownRotation", "disclosureGroupStyle", "draggable",
    "dropDestination", "exportableToServices", "exportsItemProviders", "fileExporter",
    "fileImporter", "fileMover", "focused", "formStyle", "gaugeStyle", "gesture",
    "groupBoxStyle", "highPriorityGesture", "importableFromServices", "importsItemProviders",
    "indexViewStyle", "itemProvider", "labelStyle", "labeledContentStyle", "listStyle",
    "menuButtonStyle", "menuStyle", "navigationSplitViewStyle", "onCommand",
    "onContinuousHover", "onContinueUserActivity", "onCopyCommand", "onDrag", "onDrop",
    "onHover", "onKeyPress", "onOpenURL", "onPasteCommand", "onSubmit", "onTapGesture",
    "pageCommand", "pasteDestination", "pickerStyle", "presentationDetents",
    "presentedWindowStyle", "presentedWindowToolbarStyle", "progressViewStyle",
    "scrollPosition", "scrollTargetBehavior", "searchCompletion", "searchScopes",
    "sensoryFeedback", "simultaneousGesture", "symbolEffect", "tabViewStyle", "tableStyle",
    "textEditorStyle", "textSelection", "toggleStyle", "transaction", "userActivity",
    "allowedDynamicRange", "alternatingRowBackgrounds", "badgeProminence",
    "buttonRepeatBehavior", "colorEffect", "containerBackground", "contentMargins",
    "coordinateSpace", "dialogSeverity", "distortionEffect", "fileDialogBrowserOptions",
    "focusable", "layerEffect", "layoutDirectionBehavior", "listSectionSpacing",
    "menuActionDismissBehavior", "onMoveCommand", "ornament", "paletteSelectionEffect",
    "presentationBackgroundInteraction", "presentationCompactAdaptation",
    "presentationContentInteraction", "scrollBounceBehavior", "searchDictationBehavior",
    "springLoadingBehavior", "textScale", "toolbarTitleDisplayMode", "touchBar",
    "touchBarItemPresence", "typesettingLanguage", "listRowBackground", "tag",
    "fileDialogMessage", "typeSelectEquivalent", "fileExporterFilenameLabel", "dialogIcon",
    "hueRotation", "rotationEffect", "rotation3DEffect", "fileDialogDefaultDirectory",
    "gridCellUnsizedAxes", "redacted", "onCutCommand", "confirmationDialog",
    "onLongPressGesture", "onLongTouchGesture", "prefersDefaultFocus",
    "accessibilityElementModifier", "listRowSeparatorTint", "listSectionSeparator", "id",
    "blendMode", "menuOrder", "fontWidth", "listRowInsets", "menuIndicator", "safeAreaPadding",
    "headerProminence", "listRowSeparator", "tableColumnHeaders", "listSectionSeparator",
    "digitalCrownAccessory", "scrollContentBackground", "persistentSystemOverlays",
    "presentationDragIndicator", "fontDesign", "controlSize", "submitLabel", "toolbarRole",
    "defaultHoverEffect", "listRowHoverEffect", "preferredColorScheme", "focusScope",
    "hoverEffect", "listItemTint", "keyboardShortcut", "symbolVariant", "textContentType",
    "defaultAppStorage", "ignoresSafeArea", "buttonBorderShape", "contentTransition",
    "truncationMode", "projectionEffect", "gridColumnAlignment", "transformEffect",
    "scrollIndicators", "scrollDismissesKeyboard", "renameAction", "matchedGeometryEffect",
    "accessibilityRotorEntry", "accessibilityLinkedGroup", "handlesExternalEvents",
    "safeAreaInset", "swipeActions", "accessibilityLabeledPair", "badge",
    "fileDialogConfirmationLabel", "searchSuggestions", "scenePadding", "drawingGroup",
    "searchable", "underline", "strikethrough", "contentShape", "onCopyCommand",
    "accessibilityElement", "listSectionSeparatorTint", "popover", "toolbarBackground",
    "toolbarColorScheme", "mask"]

/-- Names of scalar types, and the names that decoders know them by. -/
def builtinAliases : List (String × String) :=
  [("CGFloat", "Double"), ("Float", "Double"), ("Float32", "Double"), ("Float64", "Double"),
    ("TimeInterval", "Double"), ("Int8", "Int"), ("Int16", "Int"), ("Int32", "Int"),
    ("Int64", "Int"), ("UInt", "Int"), ("UInt8", "Int"), ("UInt16", "Int"), ("UInt32", "Int"),
    ("UInt64", "Int"), ("LocalizedStringKey", "String"), ("LocalizedStringResource", "String"),
    ("Substring", "String"), ("Character", "String")]

def builtinEnumerations : List (String × Enumeration) :=
  [("Alignment",
      ⟨["center", "leading", "trailing", "top", "bottom", "topLeading", "topTrailing",
        "bottomLeading", "bottomTrailing", "centerFirstTextBaseline", "centerLastTextBaseline",
        "leadingFirstTextBaseline", "leadingLastTextBaseline", "trailingFirstTextBaseline",
        "trailingLastTextBaseline"], false⟩),
    ("HorizontalAlignment",
      ⟨["leading", "center", "trailing", "listRowSeparatorLeading", "listRowSeparatorTrailing"],
        false⟩),
    ("VerticalAlignment",
      ⟨["top", "center", "bottom", "firstTextBaseline", "lastTextBaseline"], false⟩),
    ("Edge",
      ⟨["top", "leading", "bottom", "trailing"], false⟩),
    ("Edge.Set",
      ⟨["top", "leading", "bottom", "trailing", "all", "horizontal", "vertical"], true⟩),
    ("Axis",
      ⟨["horizontal", "vertical"], false⟩),
    ("Axis.Set",
      ⟨["horizontal", "vertical"], true⟩),
    ("TextAlignment",
      ⟨["leading", "center", "trailing"], false⟩),
    ("Font.Weight",
      ⟨["ultraLight", "thin", "light", "regular", "medium", "semibold", "bold", "heavy", "black"],
        false⟩),
    ("Font.Design",
      ⟨["default", "serif", "rounded", "monospaced"], false⟩),
    ("ColorScheme",
      ⟨["light", "dark"], false⟩),
    ("Visibility",
      ⟨["automatic", "visible", "hidden"], false⟩),
    ("ContentMode",
      ⟨["fit", "fill"], false⟩),
    ("Text.TruncationMode",
      ⟨["head", "tail", "middle"], false⟩),
    ("Text.Case",
      ⟨["uppercase", "lowercase"], false⟩),
    ("Prominence",
      ⟨["standard", "increased"], false⟩),
    ("ControlSize",
      ⟨["mini", "small", "regular", "large", "extraLarge"], false⟩),
    ("RoundedCornerStyle",
      ⟨["circular", "continuous"], false⟩),
    ("ScrollDismissesKeyboardMode",
      ⟨["automatic", "immediately", "interactively", "never"], false⟩)]

def builtin : Configuration where
  version := "1"
  extendsDefault := true
  excluded := NameSet.ofList builtinExcluded
  targets := ["View", "SwiftUI.View"]
  aliases := .ofList builtinAliases
  enumerations := .ofList builtinEnumerations

end Configuration
end ViewModifiers
