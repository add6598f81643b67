import LiveWireSwitch.Lib.Runs
import LiveWireSwitch.Lib.Scan
import LiveWireSwitch.BriCtrl
import LiveWireSwitch.BriCtrl.Mirror
import LiveWireSwitch.BriCtrl.Limits
import LiveWireSwitch.AppUart.Framing
import LiveWireSwitch.AppEvent
import LiveWireSwitch.AppEvent.Forwarding
import LiveWireSwitch.RmakerParam
import LiveWireSwitch.RmakerParam.Reports
import LiveWireSwitch.AppRainmaker
import LiveWireSwitch.RmakerParam.Offline
import LiveWireSwitch.CloudAgreement
import LiveWireSwitch.PowerLock
import LiveWireSwitch.MqttRecovery
import LiveWireSwitch.Ic2Ctrl
import LiveWireSwitch.AppEvent.Backoff
import LiveWireSwitch.AppEvent.Reconnect
import LiveWireSwitch.AppUart.Acknowledge
import LiveWireSwitch.TimeSync
import LiveWireSwitch.AppUart.Echo
import LiveWireSwitch.BriCtrl.Status
import LiveWireSwitch.AppUart.Statements
import LiveWireSwitch.AppUart.TornFrames
import LiveWireSwitch.AppUart.SenderLife
import LiveWireSwitch.PowerLock.Interleaved
import LiveWireSwitch.WakeLine
import LiveWireSwitch.AppUart.LoopBounds
import LiveWireSwitch.Ic2Ctrl.Averaging
import LiveWireSwitch.AppUart.Uninterrupted
import LiveWireSwitch.EspMqtt.Fragile
import LiveWireSwitch.EspMqtt.Wire
import LiveWireSwitch.EspMqtt.Inbound
import LiveWireSwitch.RmakerParam.Payloads
import LiveWireSwitch.RmakerParam.Requests
import LiveWireSwitch.RmakerParam.RoundTrip
import LiveWireSwitch.RemoteRequests
import LiveWireSwitch.LightRequests
