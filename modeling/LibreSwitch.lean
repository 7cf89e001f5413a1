import LibreSwitch.Library.Interaction
import LibreSwitch.Library.ByteString
import LibreSwitch.Domain.TouchInput
import LibreSwitch.Domain.ControlCoordinator
import LibreSwitch.Domain.BootPolicy
import LibreSwitch.Domain.IndicatorController
import LibreSwitch.Profiles.DeviceProfile
import LibreSwitch.Adapters.GpioRelaySink
import LibreSwitch.Adapters.FlashDbStatePersistence
import LibreSwitch.App.PersistingStateListener
import LibreSwitch.App.ControlLoop
import LibreSwitch.App.CommandPath
import LibreSwitch.Net.OtaService
import LibreSwitch.Net.PublishedStates
import LibreSwitch.Net.ProvisioningService
import LibreSwitch.App.HealthWindow
import LibreSwitch.Net.StoredCredentials
import LibreSwitch.Net.OtaDowngrade
import LibreSwitch.App.OtaPending
import LibreSwitch.App.BootConfig
import LibreSwitch.Log.LogOrder
import LibreSwitch.App.LogAnchors
import LibreSwitch.App.FactoryReset
import LibreSwitch.Domain.AnnouncementReplay
import LibreSwitch.Domain.TouchDebounce
import LibreSwitch.Domain.GlitchRejection
import LibreSwitch.Domain.ResetGesture
import LibreSwitch.Domain.StuckPair
import LibreSwitch.App.PadScan
import LibreSwitch.Net.TimeShift
import LibreSwitch.Domain.CrcBurst
import LibreSwitch.Adapters.BurstCorruption
import LibreSwitch.Net.RelaySetGrammar
import LibreSwitch.Net.ManifestMeaning
import LibreSwitch.Net.ManifestDecode
import LibreSwitch.Net.ProvForm
import LibreSwitch.Net.TokenEncoding
import LibreSwitch.Net.EnrollmentGrammar
import LibreSwitch.Net.ReconnectSchedule
import LibreSwitch.Net.ListeningSession
import LibreSwitch.Domain.LedCoherence
import LibreSwitch.App.ResetFeedback
import LibreSwitch.Log.FlashDbTsdbSink
import LibreSwitch.Net.StagedImage
import LibreSwitch.Net.HttpBody
import LibreSwitch.Platform.QueueRefinement
import LibreSwitch.Net.FormEncoding
import LibreSwitch.Adapters.BurstDetection
import LibreSwitch.Net.UrlTargets
import LibreSwitch.Log.LogTime
import LibreSwitch.Net.IdleTimeout
import LibreSwitch.Library.Monitor
import LibreSwitch.Platform.SyncQueue
import LibreSwitch.Platform.QueuePreemption
import LibreSwitch.App.BoardPins
import LibreSwitch.App.StateViews
import LibreSwitch.App.ResetProvenance
import LibreSwitch.App.OtaDelivery
import LibreSwitch.Library.Broker
import LibreSwitch.Net.DeviceFleet
import LibreSwitch.Net.MqttRecovery
import LibreSwitch.Library.HttpRequest
import LibreSwitch.Net.HttpRequests
import LibreSwitch.App.SwitchHistory
